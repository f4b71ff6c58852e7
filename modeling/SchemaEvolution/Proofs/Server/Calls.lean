import SchemaEvolution.Proofs.Server.Statements

set_option autoImplicit false

/-! # Calls on one transaction

The calls `commit` and `rollback` close the transaction, whatever comes of them, and from then on
every call fails and sends nothing. So however the calls follow each other and whatever the server
answers, one end at most is sent, beside those that `execute` is given (`endsOnce`).
-/

namespace SchemaEvolution

/-! ## Calls -/

/-- A call of an operation of a backend. -/
inductive Call where
  | ensureSchema (schema : String)
  | execute (sql : String)
  | loadSnapshot (schema table : String)
  | saveSnapshot (schema : String) (r : Relation)
  | snapshots (schema : String)
  | liveColumns (schema table : String)
  | liveIndexes (schema table : String)
  | startStep (schema name : String)
  | stepStarted (schema name : String)
  | stopStep (schema name : String)
  | commit
  | rollback

namespace Call

/-- What a call does on a backend. The value that it gives is left out. -/
def on {σ : Type} (b : Backend σ) : Call → Work σ Unit
  | ensureSchema schema => b.ensureSchema schema
  | execute sql => b.execute sql
  | loadSnapshot schema table => do let _ ← b.loadSnapshot schema table
  | saveSnapshot schema r => b.saveSnapshot schema r
  | snapshots schema => do let _ ← b.snapshots schema
  | liveColumns schema table => do let _ ← b.liveColumns schema table
  | liveIndexes schema table => do let _ ← b.liveIndexes schema table
  | startStep schema name => b.startStep schema name
  | stepStarted schema name => do let _ ← b.stepStarted schema name
  | stopStep schema name => b.stopStep schema name
  | commit => b.commit
  | rollback => b.rollback

/-- The call asks for the end of the transaction. -/
def isEnd : Call → Bool
  | commit | rollback => true
  | _ => false

/-- The statement of its caller that a call hands on. -/
def executed : Call → List Statement
  | execute sql => [⟨sql, []⟩]
  | _ => []

open Postgres Session

section Backend

variable [Json.Codec] [Client] {s : Session} {call : Call}

/-- A call on a transaction that is over fails and does nothing. -/
theorem on_closed (call : Call) (hs : s.status ≠ .opened) :
    (call.on backend).run s = (.error .noTransaction, s) := by
  have hquery := query_closed hs
  cases call with
  | ensureSchema schema => exact Work.bind_run_error (Work.bind_run_error (hquery _ _))
  | execute sql => exact Work.bind_run_error (hquery _ _)
  | loadSnapshot schema table => exact Work.bind_run_error (Work.bind_run_error (hquery _ _))
  | saveSnapshot schema r => exact Work.bind_run_error (hquery _ _)
  | snapshots schema => exact Work.bind_run_error (Work.bind_run_error (hquery _ _))
  | liveColumns schema table => exact Work.bind_run_error (Work.bind_run_error (hquery _ _))
  | liveIndexes schema table => exact Work.bind_run_error (Work.bind_run_error (hquery _ _))
  | startStep schema name => exact Work.bind_run_error (hquery _ _)
  | stepStarted schema name => exact Work.bind_run_error (Work.bind_run_error (hquery _ _))
  | stopStep schema name => exact Work.bind_run_error (hquery _ _)
  | commit => exact finish_closed hs _
  | rollback => exact finish_closed hs _

/-- A call that asks for the end sends one, and the transaction is over. -/
theorem on_end [LawfulClient] (h : call.isEnd = true) (hs : s.status = .opened) :
    ∃ st, st.isEnd = true ∧
      ((call.on backend).run s = (.ok (), { s.after [st] with status := .ended }) ∨
        ∃ e, (call.on backend).run s = (.error e, { s.after [st] with status := .broken })) := by
  cases call with
  | commit => exact ⟨.commit, rfl, finish_opened hs "COMMIT"⟩
  | rollback => exact ⟨.rollback, rfl, finish_opened hs "ROLLBACK"⟩
  | _ => cases h

/-- Any other call leaves the transaction open, and sends no end but one that it was given. -/
theorem on_extends (h : call.isEnd = false) (hs : s.status = .opened) :
    ∃ new, ((call.on backend).run s).2 = s.after new ∧
      new.countP Statement.isEnd = call.executed.countP Statement.isEnd := by
  cases call with
  | ensureSchema schema => exact ((ensureSchema_changes schema).extends hs).countP_isEnd
  | execute sql =>
      refine ⟨[⟨sql, []⟩], ?_, rfl⟩
      show ((query sql [] >>= fun _ => pure ()).run s).2 = _
      rw [Work.bind_run_state fun _ _ => rfl, query_opened hs, send_state]
  | loadSnapshot schema table =>
      exact (reads_discard (loadSnapshot_reads schema table) s).countP_isEnd
  | saveSnapshot schema r => exact ((saveSnapshot_changes schema r).extends hs).countP_isEnd
  | snapshots schema => exact (reads_discard (snapshots_reads schema) s).countP_isEnd
  | liveColumns schema table =>
      exact (reads_discard (liveColumns_reads schema table) s).countP_isEnd
  | liveIndexes schema table =>
      exact (reads_discard (liveIndexes_reads schema table) s).countP_isEnd
  | startStep schema name => exact ((startStep_changes schema name).extends hs).countP_isEnd
  | stepStarted schema name =>
      exact (reads_discard (stepStarted_reads schema name) s).countP_isEnd
  | stopStep schema name => exact ((stopStep_changes schema name).extends hs).countP_isEnd
  | commit => cases h
  | rollback => cases h

end Backend

end Call

/-! ## Sequences of calls -/

namespace Session

open Postgres

variable [Json.Codec] [Client] {s : Session} {call : Call} {calls : List Call}

/-- The session after some calls, one after the other. -/
def called (s : Session) (calls : List Call) : Session :=
  calls.foldl (fun s call => ((call.on backend).run s).2) s

theorem called_cons (s : Session) (call : Call) (calls : List Call) :
    s.called (call :: calls) = ((call.on backend).run s).2.called calls := rfl

theorem called_closed (hs : s.status ≠ .opened) (calls : List Call) : s.called calls = s := by
  induction calls with
  | nil => rfl
  | cons call calls ih => rw [called_cons, call.on_closed hs, ih]

theorem status_ne_of_isEnd [LawfulClient] (h : call.isEnd = true) (s : Session) :
    ((call.on backend).run s).2.status ≠ .opened := by
  by_cases hs : s.status = .opened
  · obtain ⟨st, -, hrun | ⟨e, hrun⟩⟩ := call.on_end h hs <;> rw [hrun] <;> exact Status.noConfusion
  · rwa [call.on_closed hs]

/-- Once an end was asked for, the transaction is over. -/
theorem status_called [LawfulClient] (h : ∃ call ∈ calls, call.isEnd = true) (s : Session) :
    (s.called calls).status ≠ .opened := by
  induction calls generalizing s with
  | nil =>
      obtain ⟨call, hcall, -⟩ := h
      exact absurd hcall List.not_mem_nil
  | cons call calls ih =>
      rw [called_cons]
      cases hend : call.isEnd with
      | true =>
          have hclosed := status_ne_of_isEnd hend s
          rwa [called_closed hclosed]
      | false =>
          obtain ⟨other, hother, hisEnd⟩ := h
          rcases List.mem_cons.mp hother with rfl | hmem
          · rw [hend] at hisEnd
            cases hisEnd
          · exact ih ⟨other, hmem, hisEnd⟩ _

/-- **Whatever is called and whatever the server answers**, at most one end is sent beside those
that `execute` was given. -/
theorem called_sent [LawfulClient] (hs : s.status = .opened) (calls : List Call) :
    ∃ new : List Statement, (s.called calls).sent = new.reverse ++ s.sent ∧
      new.countP Statement.isEnd ≤ (calls.flatMap Call.executed).countP Statement.isEnd + 1 := by
  induction calls generalizing s with
  | nil => exact ⟨[], rfl, Nat.zero_le _⟩
  | cons call calls ih =>
      rw [called_cons, List.flatMap_cons, List.countP_append]
      cases hend : call.isEnd with
      | true =>
          obtain ⟨st, -, hrun⟩ := call.on_end hend hs
          rw [called_closed (status_ne_of_isEnd hend s)]
          refine ⟨[st], ?_, (List.countP_le_length.trans (Nat.le_add_left 1 _))⟩
          rcases hrun with hrun | ⟨e, hrun⟩ <;> rw [hrun] <;> rfl
      | false =>
          obtain ⟨first, hrun, hfirst⟩ := call.on_extends hend hs
          rw [hrun]
          obtain ⟨second, hsent, hsecond⟩ := ih (s := s.after first) hs
          refine ⟨first ++ second, ?_, ?_⟩
          · rw [hsent, after, List.reverse_append, List.append_assoc]
          · rw [List.countP_append]
            omega

/-- One of the calls ended the transaction with success. -/
def Ended (s : Session) (calls : List Call) : Prop :=
  ∃ before call later, calls = before ++ call :: later ∧ call.isEnd = true ∧
    ((call.on backend).run (s.called before)).1 = .ok ()

theorem not_ended_of_closed (hs : s.status ≠ .opened) (calls : List Call) : ¬ s.Ended calls := by
  rintro ⟨before, call, later, -, -, hok⟩
  rw [called_closed hs, call.on_closed hs] at hok
  cases hok

theorem ended_cons :
    s.Ended (call :: calls) ↔
      (call.isEnd = true ∧ ((call.on backend).run s).1 = .ok ()) ∨
        ((call.on backend).run s).2.Ended calls := by
  constructor
  · rintro ⟨_ | ⟨first, before⟩, other, later, hcalls, hend, hok⟩
    · cases hcalls
      exact .inl ⟨hend, hok⟩
    · cases hcalls
      exact .inr ⟨before, other, later, rfl, hend, hok⟩
  · rintro (⟨hend, hok⟩ | ⟨before, other, later, rfl, hend, hok⟩)
    · exact ⟨[], call, calls, rfl, hend, hok⟩
    · exact ⟨call :: before, other, later, rfl, hend, hok⟩

/-- When the connection is given back, a transaction that was not ended with success is rolled
back. -/
theorem release_called [LawfulClient] (hs : s.status = .opened) (calls : List Call) :
    (s.Ended calls ∧ (Client.release (s.called calls)).sent = (s.called calls).sent) ∨
      (¬ s.Ended calls ∧
        (Client.release (s.called calls)).sent = .rollback :: (s.called calls).sent) := by
  induction calls generalizing s with
  | nil =>
      refine .inr ⟨?_, ?_⟩
      · rintro ⟨before, call, later, hcalls, -, -⟩
        exact List.append_ne_nil_of_right_ne_nil before (List.cons_ne_nil call later) hcalls.symm
      · show (Client.release s).sent = _
        rw [LawfulClient.release_unended (.inl hs)]
        rfl
  | cons call calls ih =>
      rw [called_cons, ended_cons]
      cases hend : call.isEnd with
      | true =>
          have hclosed := status_ne_of_isEnd hend s
          have hlater := not_ended_of_closed hclosed calls
          rw [called_closed hclosed]
          obtain ⟨st, -, hrun | ⟨e, hrun⟩⟩ := call.on_end hend hs
          · refine .inl ⟨.inl ⟨rfl, ?_⟩, ?_⟩ <;> rw [hrun]
            rw [LawfulClient.release_ended (.inr rfl)]
          · refine .inr ⟨?_, ?_⟩
            · rintro (⟨-, hok⟩ | h)
              · rw [hrun] at hok
                cases hok
              · exact hlater h
            · rw [hrun, LawfulClient.release_unended (.inr rfl)]
              rfl
      | false =>
          obtain ⟨new, hrun, -⟩ := call.on_extends hend hs
          have hnot : ¬ (false = true ∧ ((call.on backend).run s).1 = .ok ()) :=
            fun h => Bool.false_ne_true h.1
          rw [or_iff_right hnot, hrun]
          exact ih (s := s.after new) hs

/-- The transaction that is open on the session is ended once by the calls. -/
structure EndsOnce (s : Session) (calls : List Call) : Prop where
  /-- At most one end is sent, beside those that `execute` was given. -/
  sends : ∃ new : List Statement, (s.called calls).sent = new.reverse ++ s.sent ∧
    new.countP Statement.isEnd ≤ (calls.flatMap Call.executed).countP Statement.isEnd + 1
  /-- When an end was asked for, even in vain, every later call fails and does nothing. -/
  refuses : ∀ before call later, calls = before ++ call :: later →
    (∃ earlier ∈ before, earlier.isEnd = true) →
      (call.on backend).run (s.called before) = (.error .noTransaction, s.called before)
  /-- Giving the connection back rolls back what was not ended with success. -/
  releases : (s.Ended calls ∧ (Client.release (s.called calls)).sent = (s.called calls).sent) ∨
    (¬ s.Ended calls ∧ (Client.release (s.called calls)).sent = .rollback :: (s.called calls).sent)

theorem endsOnce [LawfulClient] (hs : s.status = .opened) (calls : List Call) :
    s.EndsOnce calls where
  sends := called_sent hs calls
  refuses _ call _ _ hbefore := call.on_closed (status_called hbefore s)
  releases := release_called hs calls

end Session

end SchemaEvolution
