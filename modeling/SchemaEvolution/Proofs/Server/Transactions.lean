import SchemaEvolution.CommandLine.Run
import SchemaEvolution.Proofs.Server.Calls

set_option autoImplicit false

/-! # Transactions

An operation on named steps and a command have one transaction each. Around the statements of its
body a transaction sends `BEGIN`, and then the end it was given if the body succeeded, or `ROLLBACK`
if it failed or if the end did (`Framed`). A body that changes something succeeds when the server
has carried out all its statements; so `COMMIT` is sent behind all of them or not at all, and a body
that reads is never committed. Together with what calls on one open transaction may send, that is
the discipline of everything that talks to a server (`transactions_disciplined`). It is the same
with every client library that opens and ends transactions by the laws (`LawfulClient`).
-/

namespace SchemaEvolution

open Postgres Session

variable {α : Type} {server : Server} {sent : List Statement}

/-! ## A computation in a transaction of its own -/

/-- A free connection. -/
def Session.free (server : Server) (sent : List Statement) : Session := ⟨server, sent, .idle⟩

/-- The connection when the server has opened a transaction on it. -/
def Session.begun (server : Server) (sent : List Statement) : Session :=
  ⟨server, .begin :: sent, .opened⟩

/-- What a transaction on a free connection sends. The connection is given back behind it: that
rolls back what was not ended, or not with success. -/
inductive Framed (server : Server) (sent : List Statement) (w : Work Session α)
    (last : Statement) : List Statement → Prop
  | refused : ¬ server.Accepts sent [.begin] → Framed server sent w last [.begin]
  | failed {e : MigrationError} {new : List Statement} :
      w.run (begun server sent) = (.error e, (begun server sent).after new) →
      Framed server sent w last (.begin :: (new ++ [.rollback]))
  | ended {a : α} {new tail : List Statement} :
      server.Accepts sent [.begin] →
      w.run (begun server sent) = (.ok a, (begun server sent).after new) →
      tail = [] ∨ tail = [.rollback] →
      Framed server sent w last (.begin :: (new ++ last :: tail))

theorem begin_run [Client] [LawfulClient] (server : Server) (sent : List Statement) :
    (Client.begin.run (free server sent) = (.ok (), begun server sent) ∧
        server.Accepts sent [.begin]) ∨
      ∃ e, Client.begin.run (free server sent) = (.error e, (free server sent).after [.begin]) ∧
        ¬ server.Accepts sent [.begin] :=
  LawfulClient.begin_run rfl

section Release

variable [Client] [LawfulClient] {s : Session}

theorem release_ended (h : s.status = .idle ∨ s.status = .ended) :
    Client.release s = free s.server s.sent :=
  LawfulClient.release_ended h

theorem release_unended (h : s.status = .opened ∨ s.status = .broken) :
    Client.release s = free s.server (.rollback :: s.sent) :=
  LawfulClient.release_unended h

end Release

theorem sent_framed (sent new tail : List Statement) :
    tail.reverse ++ (new.reverse ++ .begin :: sent) =
      (.begin :: (new ++ tail)).reverse ++ sent := by
  rw [List.reverse_cons, List.reverse_append, List.append_assoc, List.append_assoc]
  rfl

/-- Whatever its body does, a transaction leaves the connection free. -/
theorem transaction_framed [Client] [LawfulClient] {w : Work Session α}
    (hw : ∃ new, (w.run (begun server sent)).2 = (begun server sent).after new) (sql : String) :
    ∃ trace, ((Steps.transaction w (finish sql)).run (free server sent)).2 =
        free server (trace.reverse ++ sent) ∧ Framed server sent w ⟨sql, []⟩ trace := by
  show ∃ trace, Client.release ((Client.begin >>= fun _ => w >>= fun a =>
    finish sql >>= fun _ => pure a).run (Client.release (free server sent))).2 = _ ∧ _
  have hfree : Client.release (free server sent) = free server sent := release_ended (.inl rfl)
  rw [hfree]
  rcases begin_run server sent with ⟨hbegin, haccepts⟩ | ⟨e, hbegin, hrefused⟩
  · obtain ⟨new, hnew⟩ := hw
    rw [Work.bind_run_ok hbegin]
    rcases hbody : w.run (begun server sent) with ⟨e | a, t⟩
    · rw [hbody] at hnew
      obtain rfl : t = (begun server sent).after new := hnew
      rw [Work.bind_run_error hbody]
      exact ⟨_, (release_unended (.inl rfl)).trans
        (congrArg (free server) (sent_framed sent new [.rollback])), .failed hbody⟩
    · rw [hbody] at hnew
      obtain rfl : t = (begun server sent).after new := hnew
      rw [Work.bind_run_ok hbody, Work.bind_run_state fun _ _ => rfl]
      rcases finish_opened (s := (begun server sent).after new) rfl sql with hend | ⟨e, hend⟩
      · rw [hend]
        exact ⟨_, (release_ended (.inr rfl)).trans
          (congrArg (free server) (sent_framed sent new [⟨sql, []⟩])),
          .ended haccepts hbody (.inl rfl)⟩
      · rw [hend]
        exact ⟨_, (release_unended (.inr rfl)).trans
          (congrArg (free server) (sent_framed sent new [⟨sql, []⟩, .rollback])),
          .ended haccepts hbody (.inr rfl)⟩
  · rw [Work.bind_run_error hbegin]
    exact ⟨[.begin], release_ended (.inl rfl), .refused hrefused⟩

/-- A transaction sends `BEGIN` first, and an end or two at most behind its body. -/
theorem Framed.shape {P : Statement → Prop} {w : Work Session α} {last : Statement}
    {trace : List Statement} (h : Framed server sent w last trace)
    (hw : Extends P (begun server sent) (w.run (begun server sent)).2) :
    ∃ new tail, trace = .begin :: (new ++ tail) ∧ (∀ st ∈ new, P st) ∧
      ∀ st ∈ tail, st = last ∨ st = .rollback := by
  have hbody : ∀ {r new}, w.run (begun server sent) = (r, (begun server sent).after new) →
      ∀ st ∈ new, P st := by
    intro r new hrun
    obtain ⟨new', hnew, hP⟩ := hw
    rw [hrun] at hnew
    exact after_injective _ hnew ▸ hP
  cases h with
  | refused hrefused =>
      exact ⟨[], [], rfl, List.forall_mem_nil _, List.forall_mem_nil _⟩
  | failed hrun =>
      exact ⟨_, _, rfl, hbody hrun, List.forall_mem_singleton.mpr (.inr rfl)⟩
  | ended haccepts hrun htail =>
      refine ⟨_, _, rfl, hbody hrun, List.forall_mem_cons.mpr ⟨.inl rfl, ?_⟩⟩
      rcases htail with rfl | rfl
      · exact List.forall_mem_nil _
      · exact List.forall_mem_singleton.mpr (.inr rfl)

theorem Framed.count_begin {w : Work Session α} {last : Statement} {trace : List Statement}
    (h : Framed server sent w last trace) (hlast : last ≠ .begin)
    (hw : Extends Statement.OnTables (begun server sent) (w.run (begun server sent)).2) :
    trace.count .begin ≤ 1 := by
  obtain ⟨new, tail, rfl, hnew, htail⟩ := h.shape hw
  have hbody : Statement.begin ∉ new := fun h => (hnew _ h).ne.1 rfl
  have hends : Statement.begin ∉ tail := fun h =>
    (htail _ h).elim (fun h => hlast h.symm) (by decide)
  rw [List.count_cons_self, List.count_append, List.count_eq_zero.mpr hbody,
    List.count_eq_zero.mpr hends]

/-! ## The discipline of a transaction -/

/-- What may be sent on behalf of something that changes what `changes` says: one transaction, that
is committed when the server has carried out the changes and only then. Without changes only
statements that read are sent in it. -/
structure Disciplined (schema : String) (server : Server) (sent changes trace : List Statement) :
    Prop where
  opens : trace.count .begin ≤ 1
  commits : .commit ∈ trace ↔ changes ≠ [] ∧ server.Accepts sent (.begin :: changes)
  commitsBehind : ∀ before after, trace = before ++ .commit :: after → before = .begin :: changes
  reads : changes = [] → ∀ st ∈ trace, st = .begin ∨ st = .rollback ∨ st.Reads schema

namespace Disciplined

variable {schema : String} {changes trace : List Statement}

/-- Without a `COMMIT` there is nothing to keep in order, if there was nothing to commit. -/
theorem of_not_commit (opens : trace.count .begin ≤ 1) (hnot : .commit ∉ trace)
    (hrefused : changes = [] ∨ ¬ server.Accepts sent (.begin :: changes))
    (reads : changes = [] → ∀ st ∈ trace, st = .begin ∨ st = .rollback ∨ st.Reads schema) :
    Disciplined schema server sent changes trace where
  opens := opens
  commits := by
    refine iff_of_false hnot ?_
    rintro ⟨hne, haccepts⟩
    exact hrefused.elim hne fun h => h haccepts
  commitsBehind before after htrace := by
    rw [htrace] at hnot
    exact absurd (List.mem_append_right before (.head after)) hnot
  reads := reads

/-- What only reads is rolled back. -/
theorem of_reads {w : Work Session α} (h : Framed server sent w .rollback trace)
    (hw : w.Moves (Extends (Statement.Reads schema))) :
    Disciplined schema server sent [] trace := by
  obtain ⟨new, tail, htrace, hnew, htail⟩ := h.shape (hw _)
  have hreads : ∀ st ∈ trace, st = .begin ∨ st = .rollback ∨ st.Reads schema := by
    intro st hst
    rw [htrace] at hst
    rcases List.mem_cons.mp hst with rfl | hst
    · exact .inl rfl
    · exact (List.mem_append.mp hst).elim (fun h => .inr (.inr (hnew st h)))
        fun h => .inr (.inl ((htail st h).elim id id))
  refine of_not_commit (h.count_begin (by decide) ?_) ?_ (.inl rfl) fun _ => hreads
  · exact (hw _).mono fun _ => Statement.Reads.onTables
  · intro hmem
    rcases hreads _ hmem with h | h | h
    · exact absurd h (by decide)
    · exact absurd h (by decide)
    · exact h.onTables.ne.2.1 rfl

/-- What changes something is committed when the server has carried out all of it. -/
theorem of_changes {w : Work Session α} (h : Framed server sent w .commit trace)
    (hw : Changes changes w) (hne : changes ≠ []) :
    Disciplined schema server sent changes trace := by
  have hbegin : trace.count .begin ≤ 1 := h.count_begin (by decide) (hw.extends rfl)
  have hcommit : ∀ {new : List Statement}, new <+: changes → Statement.commit ∉ new :=
    fun hnew hmem => (hw.onTables _ (hnew.subset hmem)).ne.2.1 rfl
  cases h with
  | refused hrefused =>
      refine of_not_commit hbegin (by decide) (.inr fun h => hrefused ⟨h.1, trivial⟩) (absurd · hne)
  | failed hrun =>
      rcases hw.performs (begun server sent) rfl with
        ⟨a, hok, -⟩ | ⟨e, new', herror, hnew, hrefused⟩
      · rw [hrun] at hok
        cases hok
      · rw [hrun, Prod.mk.injEq] at herror
        obtain rfl := after_injective _ herror.2
        refine of_not_commit hbegin ?_ (.inr fun h => hrefused h.2) (absurd · hne)
        intro hmem
        rcases List.mem_cons.mp hmem with h | h
        · exact absurd h (by decide)
        · exact (List.mem_append.mp h).elim (hcommit hnew) (by decide)
  | @ended a new later haccepts hrun htail =>
      rcases hw.performs (begun server sent) rfl with ⟨a, hok, hall⟩ | ⟨e, new', herror, -, -⟩
      · rw [hrun, Prod.mk.injEq] at hok
        obtain rfl : changes = new := (after_injective _ hok.2).symm
        refine ⟨hbegin, ?_, ?_, (absurd · hne)⟩
        · exact iff_of_true (.tail _ (List.mem_append_right _ (.head _))) ⟨hne, haccepts.1, hall⟩
        · -- `COMMIT` stands at one place only, behind the body
          intro before after htrace
          have hhead : Statement.commit ∉ .begin :: changes := fun hmem =>
            (List.mem_cons.mp hmem).elim (by decide) (hcommit List.prefix_rfl)
          have hlater : Statement.commit ∉ later := by
            rcases htail with rfl | rfl <;> decide
          exact ((List.append_cons_inj_of_notMem hhead hlater).mp htrace).1.symm
      · rw [hrun] at herror
        cases herror

end Disciplined

/-! ## Requests -/

/-- What is asked of a server beside migrations: an operation on named steps, or a command. -/
inductive Request where
  | ensure
  | start (name : String)
  | isStarted (name : String)
  | stop (name : String)
  | command (c : CommandLine.Command)

namespace Request

/-- The connection after a request. -/
def run [Json.Codec] [Client] (schema : String) : Request → Session → Session
  | ensure, s => ((Steps.ensure schema).run s).2
  | start name, s => ((Steps.start schema name).run s).2
  | isStarted name, s => ((Steps.isStarted schema name).run s).2
  | stop name, s => ((Steps.stop schema name).run s).2
  | command c, s => (c.runOn schema s).2

/-- The statements by which a request changes something. -/
def changes (schema : String) : Request → List Statement
  | ensure | command .init => ensureSchemaStatements schema
  | start name | command (.stepStart name) => [⟨startStepSql schema, [name]⟩]
  | stop name | command (.stepStop name) => [⟨stopStepSql schema, [name]⟩]
  | _ => []

variable [Json.Codec] [Client] {schema : String} {changes : List Statement} {w : Work Session α}

theorem exists_of_changes [LawfulClient] (schema : String) (server : Server) (sent : List Statement)
    (hw : Changes changes w) (hne : changes ≠ []) :
    ∃ trace, ((Steps.transaction w backend.commit).run (free server sent)).2 =
        free server (trace.reverse ++ sent) ∧ Disciplined schema server sent changes trace := by
  obtain ⟨new, hnew, -⟩ := hw.extends (s := begun server sent) rfl
  obtain ⟨trace, hrun, hframed⟩ := transaction_framed ⟨new, hnew⟩ "COMMIT"
  exact ⟨trace, hrun, .of_changes hframed hw hne⟩

theorem exists_of_reads [LawfulClient] (server : Server) (sent : List Statement)
    (hw : w.Moves (Extends (Statement.Reads schema))) :
    ∃ trace, ((Steps.transaction w backend.rollback).run (free server sent)).2 =
        free server (trace.reverse ++ sent) ∧ Disciplined schema server sent [] trace := by
  obtain ⟨new, hnew, -⟩ := hw (begun server sent)
  obtain ⟨trace, hrun, hframed⟩ := transaction_framed ⟨new, hnew⟩ "ROLLBACK"
  exact ⟨trace, hrun, .of_reads hframed hw⟩

/-- Behind its transaction a command only prints. -/
theorem runOn_state (c : CommandLine.Command) (s : Session) :
    (c.runOn schema s).2 = ((c.work schema).run s).2 := by
  rw [CommandLine.Command.runOn]
  rcases (c.work schema).run s with ⟨e | o, t⟩ <;> rfl

theorem run_disciplined [LawfulClient] (r : Request) (schema : String) (server : Server)
    (sent : List Statement) :
    ∃ trace, r.run schema (free server sent) = free server (trace.reverse ++ sent) ∧
      Disciplined schema server sent (r.changes schema) trace := by
  have hensure := exists_of_changes schema server sent (ensureSchema_changes schema)
    (List.cons_ne_nil _ _)
  have hstart := fun name => exists_of_changes schema server sent (startStep_changes schema name)
    (List.cons_ne_nil _ _)
  have hstop := fun name => exists_of_changes schema server sent (stopStep_changes schema name)
    (List.cons_ne_nil _ _)
  have hstarted := fun name => exists_of_reads server sent (stepStarted_reads schema name)
  cases r with
  | ensure => exact hensure
  | start name => exact hstart name
  | isStarted name => exact hstarted name
  | stop name => exact hstop name
  | command c =>
      show ∃ trace, (c.runOn schema _).2 = _ ∧ _
      rw [runOn_state]
      cases c with
      | init =>
          rw [CommandLine.Command.work, Work.bind_run_state fun _ _ => rfl]
          exact hensure
      | snapshots =>
          rw [CommandLine.Command.work, Work.bind_run_state fun stored t => by split <;> rfl]
          exact exists_of_reads server sent (snapshots_reads schema)
      | snapshot table =>
          rw [CommandLine.Command.work, Work.bind_run_state fun stored t => by split <;> rfl]
          exact exists_of_reads server sent (loadSnapshot_reads schema table)
      | inspect table =>
          rw [CommandLine.Command.work, Work.bind_run_state fun _ _ => rfl]
          exact exists_of_reads server sent ((liveColumns_reads schema table).bind fun columns =>
            (liveIndexes_reads schema table).bind fun indexes => .pure (columns, indexes))
      | stepStart name =>
          rw [CommandLine.Command.work, Work.bind_run_state fun _ _ => rfl]
          exact hstart name
      | stepCheck name =>
          rw [CommandLine.Command.work, Work.bind_run_state fun started t => by split <;> rfl]
          exact hstarted name
      | stepStop name =>
          rw [CommandLine.Command.work, Work.bind_run_state fun _ _ => rfl]
          exact hstop name
      | rebind query =>
          -- Nothing is sent for it.
          exact ⟨[], rfl, .of_not_commit (Nat.zero_le 1) List.not_mem_nil (.inl rfl)
            fun _ st hst => absurd hst List.not_mem_nil⟩

end Request

/-- **Transaction discipline.** Whatever the server answers and wherever it fails: the calls on an
open transaction end it once, and a request has one transaction, in which `COMMIT` is sent only if
the request changes something, behind all the statements for it and after the server has carried
them out. -/
theorem transactions_disciplined [Json.Codec] [Client] [LawfulClient] (server : Server)
    (sent : List Statement) :
    (∀ calls, (begun server sent).EndsOnce calls) ∧
      ∀ (schema : String) (r : Request),
        ∃ trace, r.run schema (free server sent) = free server (trace.reverse ++ sent) ∧
          Disciplined schema server sent (r.changes schema) trace :=
  ⟨endsOnce rfl, fun schema r => r.run_disciplined schema server sent⟩

/-- A second end is refused, and the mark of a step is committed. -/
theorem transactions_disciplined_seed :
    (Call.rollback.on backend).run
        ((begun (fun _ => .rows []) []).called [.startStep "shop" "seed", .commit]) =
      (.error .noTransaction,
        (begun (fun _ => .rows []) []).called [.startStep "shop" "seed", .commit]) ∧
      ∃ trace : List Statement, (Request.start "seed").run "shop" (free (fun _ => .rows []) []) =
          free (fun _ => .rows []) (trace.reverse ++ []) ∧ .commit ∈ trace := by
  obtain ⟨hcalls, hrequests⟩ := transactions_disciplined (fun _ => .rows []) []
  obtain ⟨trace, hrun, htrace⟩ := hrequests "shop" (.start "seed")
  refine ⟨?_, trace, hrun, htrace.commits.mpr ⟨List.cons_ne_nil _ _, ?_⟩⟩
  · exact (hcalls [.startStep "shop" "seed", .commit, .rollback]).refuses
      [.startStep "shop" "seed", .commit] .rollback [] rfl ⟨.commit, .tail _ (.head _), rfl⟩
  · exact ⟨⟨[], rfl⟩, ⟨[], rfl⟩, trivial⟩

/-- `execute` hands on what it is given: a `COMMIT` through it is one more. -/
theorem two_commits_sent :
    ¬ ∀ (server : Server) (sent : List Statement) (calls : List Call) (new : List Statement),
      ((begun server sent).called calls).sent = new.reverse ++ (begun server sent).sent →
        new.countP Statement.isEnd ≤ 1 := by
  intro h
  have htwo := h (fun _ => .rows []) [] [.execute "COMMIT", .commit] [.commit, .commit] rfl
  exact absurd htwo (by decide)

end SchemaEvolution
