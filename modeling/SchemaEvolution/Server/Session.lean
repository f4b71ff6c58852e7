import SchemaEvolution.Migration.Work

set_option autoImplicit false

/-! # Sessions with a database server

A session is one connection: the statements sent on it so far and what is to be done before it can
be used for something else. The server itself is a function that answers each statement, and may
look at all that was sent before.

A transaction is ended by `COMMIT` or `ROLLBACK`. If the end was never asked for, or failed, the
connection is reset by a `ROLLBACK` when it is given back (`Session.release`). Beginning a
transaction, ending it and giving the connection back is the part of the client library (`Client`).
-/

namespace SchemaEvolution

/-- A statement with its parameters. -/
structure Statement where
  sql : String
  params : List String := []
  deriving DecidableEq, Repr

/-- A value in a row. -/
inductive Cell where
  | text (s : String)
  | int (n : Int)
  | null
  deriving DecidableEq, Repr

/-- The answer to a statement. -/
inductive Reply where
  | rows (rows : List (List Cell))
  | failure (text : String)
  deriving DecidableEq, Repr

/-- Answers a statement, given the statements up to this one, the latest first. -/
abbrev Server := List Statement → Reply

/-- What a connection is in the middle of. -/
inductive Session.Status where
  /-- No transaction was opened since it was taken. -/
  | idle
  /-- A transaction is open. -/
  | opened
  /-- The transaction was ended. -/
  | ended
  /-- Ending the transaction failed. -/
  | broken
  deriving DecidableEq, Repr

/-- A connection to a server. -/
structure Session where
  server : Server
  /-- The statements sent, the latest first. -/
  sent : List Statement := []
  status : Session.Status := .idle

namespace Session

/-- Sends a statement and gives the rows of the answer. -/
def send (statement : Statement) : Work Session (List (List Cell)) := fun s =>
  let sent := statement :: s.sent
  match s.server sent with
  | .rows rows => (.ok rows, { s with sent })
  | .failure text => (.error (.database (.refused text)), { s with sent })

/-- Sets the status. -/
def become (status : Status) : Work Session Unit := .update fun s => { s with status }

/-- Opens a transaction. -/
def begin : Work Session Unit := do
  let _ ← send { sql := "BEGIN" }
  become .opened

/-- Ends a transaction by a statement; whatever comes of it, it is over. -/
def close (sql : String) : Work Session Unit := do
  become .broken
  let _ ← send { sql }
  become .ended

/-- Gives the connection back: a transaction that was not ended is rolled back first. -/
def release (s : Session) : Session :=
  match s.status with
  | .opened | .broken => { s with sent := ⟨"ROLLBACK", []⟩ :: s.sent, status := .idle }
  | .idle | .ended => { s with status := .idle }

end Session

/-- What a client library does on a session where a transaction begins and where it ends. -/
class Client where
  /-- Opens a transaction. -/
  begin : Work Session Unit
  /-- Ends the open transaction by a statement. -/
  close : String → Work Session Unit
  /-- Gives the connection back. -/
  release : Session → Session

instance : Client where
  begin := Session.begin
  close := Session.close
  release := Session.release

namespace Session

/-- Ends the open transaction by a statement. -/
def finish [Client] (sql : String) : Work Session Unit := do
  match (← Work.read).status with
  | .opened => Client.close sql
  | _ => Work.fail .noTransaction

/-- Sends a statement inside the open transaction. -/
def query (sql : String) (params : List String) : Work Session (List (List Cell)) := do
  match (← Work.read).status with
  | .opened => send { sql, params }
  | _ => Work.fail .noTransaction

/-- Runs a computation on a connection that is free before and after it. -/
def exclusive [Client] {α : Type} (w : Work Session α) : Work Session α := fun s =>
  let r := w (Client.release s)
  (r.1, Client.release r.2)

end Session

/-! ## Reading rows -/

namespace Cell

/-- A value of a row at a place, if there is one. -/
def read {α : Type} (row : List Cell) (column : Nat) (decode : Cell → Except DatabaseError α) :
    Except DatabaseError α :=
  match row[column]? with
  | some cell => decode cell
  | none => .error (.missingColumn row.length column)

/-- A text at a place. -/
def textAt (row : List Cell) (column : Nat) : Except DatabaseError String :=
  read row column fun
    | .text s => .ok s
    | .int _ => .error (.mismatchedType column .text)
    | .null => .error (.unexpectedNull column)

/-- A text or NULL at a place. -/
def optionalTextAt (row : List Cell) (column : Nat) : Except DatabaseError (Option String) :=
  read row column fun
    | .text s => .ok (some s)
    | .int _ => .error (.mismatchedType column .optionalText)
    | .null => .ok none

/-- An integer or NULL at a place. -/
def optionalIntAt (row : List Cell) (column : Nat) : Except DatabaseError (Option Int) :=
  read row column fun
    | .text _ => .error (.mismatchedType column .optionalInt)
    | .int n => .ok (some n)
    | .null => .ok none

end Cell

/-- What reading a row gives. -/
def Session.decoded {α : Type} (r : Except DatabaseError α) : Work Session α := fun s =>
  match r with
  | .ok a => (.ok a, s)
  | .error e => (.error (.database e), s)

end SchemaEvolution
