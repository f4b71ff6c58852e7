import SchemaEvolution.Server.Postgres

set_option autoImplicit false

/-! # Named steps

A step is the mark of a job that is to run once in a namespace. Inside a migration hooks use the
backend for it; here each operation has a transaction of its own, which is committed when it changes
something and rolled back when it only reads.
-/

namespace SchemaEvolution.Steps

open Session

variable [Json.Codec] [Client]

/-- Runs a computation in a transaction that is ended by `finish`. -/
def transaction {α : Type} (w : Work Session α) (finish : Work Session Unit) : Work Session α :=
  exclusive do
    Client.begin
    let a ← w
    finish
    return a

/-- Creates the namespace and its bookkeeping tables. -/
def ensure (schema : String) : Work Session Unit :=
  transaction (Postgres.backend.ensureSchema schema) Postgres.backend.commit

/-- Marks a step as started. -/
def start (schema name : String) : Work Session Unit :=
  transaction (Postgres.backend.startStep schema name) Postgres.backend.commit

/-- Whether a step is marked. -/
def isStarted (schema name : String) : Work Session Bool :=
  transaction (Postgres.backend.stepStarted schema name) Postgres.backend.rollback

/-- Removes the mark of a step. -/
def stop (schema name : String) : Work Session Unit :=
  transaction (Postgres.backend.stopStep schema name) Postgres.backend.commit

end SchemaEvolution.Steps
