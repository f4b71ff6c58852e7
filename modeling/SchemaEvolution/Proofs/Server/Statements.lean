import SchemaEvolution.Proofs.Migration.Work
import SchemaEvolution.Server.Postgres

set_option autoImplicit false

/-! # Statements of the backend

What the operations of the backend send on an open transaction. One that changes something sends its
statements up to the first that the server refuses, and succeeds exactly when none is refused
(`Performs`). One that reads sends nothing but the statements that read (`Statement.Reads`). None of
these statements opens or ends a transaction, which can be seen from the word they begin with.
-/

namespace SchemaEvolution

/-! ## Statements and what a server makes of them -/

namespace Statement

/-- Opens a transaction. -/
def begin : Statement := ⟨"BEGIN", []⟩

/-- Ends a transaction and keeps what was done in it. -/
def commit : Statement := ⟨"COMMIT", []⟩

/-- Ends a transaction and undoes what was done in it. -/
def rollback : Statement := ⟨"ROLLBACK", []⟩

/-- The statement ends a transaction. -/
def isEnd (st : Statement) : Bool := st == commit || st == rollback

/-- The words that statements about tables begin with. -/
def tableWords : List String := ["CREATE ", "SELECT ", "INSERT ", "DELETE "]

/-- The statement is about tables: it neither opens nor ends a transaction. -/
def OnTables (st : Statement) : Prop :=
  ∃ word ∈ tableWords, word.toList <+: st.sql.toList

theorem prefix_append {word text : String} (h : word.toList <+: text.toList) (rest : String) :
    word.toList <+: (text ++ rest).toList := by
  rw [String.toList_append]
  exact h.trans (List.prefix_append _ _)

theorem OnTables.ne {st : Statement} (h : st.OnTables) :
    st ≠ begin ∧ st ≠ commit ∧ st ≠ rollback := by
  obtain ⟨word, hword, hprefix⟩ := h
  have hnot : ∀ word ∈ tableWords, ∀ other ∈ [begin, commit, rollback],
      ¬ word.toList <+: other.sql.toList := by decide
  have hne : ∀ other ∈ [begin, commit, rollback], st ≠ other := by
    rintro other hother rfl
    exact hnot word hword st hother hprefix
  exact ⟨hne begin (by decide), hne commit (by decide), hne rollback (by decide)⟩

theorem OnTables.isEnd {st : Statement} (h : st.OnTables) : st.isEnd = false := by
  obtain ⟨-, hcommit, hrollback⟩ := h.ne
  rw [Statement.isEnd, beq_false_of_ne hcommit, beq_false_of_ne hrollback, Bool.or_false]

end Statement

/-- The server carries out the statements one after the other, when `sent` came before them. -/
def Server.Accepts (server : Server) : List Statement → List Statement → Prop
  | _, [] => True
  | sent, st :: statements =>
      (∃ rows, server (st :: sent) = .rows rows) ∧ server.Accepts (st :: sent) statements

theorem Server.accepts_append {server : Server} {first second sent : List Statement} :
    server.Accepts sent (first ++ second) ↔
      server.Accepts sent first ∧ server.Accepts (first.reverse ++ sent) second := by
  induction first generalizing sent with
  | nil => exact (iff_of_eq (true_and _)).symm
  | cons st first ih =>
      rw [List.cons_append, Accepts, Accepts, ih, and_assoc, List.reverse_cons, List.append_assoc]
      rfl

/-! ## Sessions with more statements -/

namespace Session

variable {α β : Type} {s t : Session}

/-- The session after more statements, which are given in the order they were sent in. -/
def after (s : Session) (statements : List Statement) : Session :=
  { s with sent := statements.reverse ++ s.sent }

theorem after_append (s : Session) (first second : List Statement) :
    s.after (first ++ second) = (s.after first).after second := by
  rw [after, after, after, List.reverse_append, List.append_assoc]

theorem after_injective (s : Session) : Function.Injective s.after := by
  intro first second h
  exact List.reverse_injective (List.append_cancel_right (congrArg Session.sent h))

/-- All that was done to the session was to send statements of a kind. -/
def Extends (P : Statement → Prop) (s t : Session) : Prop :=
  ∃ new, t = s.after new ∧ ∀ st ∈ new, P st

instance (P : Statement → Prop) : IsPreorder Session (Extends P) where
  refl s := ⟨[], rfl, fun st hst => absurd hst List.not_mem_nil⟩
  trans s t u := by
    rintro ⟨first, rfl, hfirst⟩ ⟨second, rfl, hsecond⟩
    refine ⟨first ++ second, (after_append s first second).symm, fun st hst => ?_⟩
    exact (List.mem_append.mp hst).elim (hfirst st) (hsecond st)

theorem Extends.mono {P Q : Statement → Prop} (hPQ : ∀ st, P st → Q st) (h : Extends P s t) :
    Extends Q s t := by
  obtain ⟨new, rfl, hnew⟩ := h
  exact ⟨new, rfl, fun st hst => hPQ st (hnew st hst)⟩

/-- A statement is sent in any case. What comes back depends on the server. -/
theorem send_run (st : Statement) (s : Session) :
    (∃ rows, (send st).run s = (.ok rows, s.after [st]) ∧ s.server.Accepts s.sent [st]) ∨
      ∃ e, (send st).run s = (.error e, s.after [st]) ∧ ¬ s.server.Accepts s.sent [st] := by
  simp only [send, Work.run, Server.Accepts, and_true]
  cases h : s.server (st :: s.sent) with
  | rows rows => exact .inl ⟨rows, rfl, rows, rfl⟩
  | failure text => exact .inr ⟨_, rfl, fun ⟨_, hrows⟩ => Reply.noConfusion hrows⟩

theorem send_state (st : Statement) (s : Session) : ((send st).run s).2 = s.after [st] := by
  rcases send_run st s with ⟨rows, hrun, -⟩ | ⟨e, hrun, -⟩ <;> rw [hrun]

/-- What depends on the status goes on in the session at hand. -/
theorem read_bind_run (k : Session → Work Session α) (s : Session) :
    (Work.read >>= k).run s = (k s).run s := rfl

theorem query_opened (hs : s.status = .opened) (sql : String) (params : List String) :
    (query sql params).run s = (send ⟨sql, params⟩).run s := by
  rw [query, read_bind_run, hs]

theorem query_closed (hs : s.status ≠ .opened) (sql : String) (params : List String) :
    (query sql params).run s = (.error .noTransaction, s) := by
  rw [query, read_bind_run]
  cases h : s.status with
  | opened => exact absurd h hs
  | _ => rfl

end Session

/-! ## The bounds of a transaction -/

/-- The laws of a client library. -/
class LawfulClient [Client] : Prop where
  /-- A transaction is open when the server has carried out its `BEGIN`. -/
  begin_run {s : Session} : s.status = .idle →
    (Client.begin.run s = (.ok (), { s.after [.begin] with status := .opened })
        ∧ s.server.Accepts s.sent [.begin]) ∨
      ∃ e, Client.begin.run s = (.error e, s.after [.begin])
        ∧ ¬ s.server.Accepts s.sent [.begin]
  /-- The end is sent, and the transaction is over: it was ended if the server says so. -/
  close_run {s : Session} (sql : String) : s.status = .opened →
    (Client.close sql).run s = (.ok (), { s.after [⟨sql, []⟩] with status := .ended }) ∨
      ∃ e, (Client.close sql).run s = (.error e, { s.after [⟨sql, []⟩] with status := .broken })
  /-- What was not ended, or not with success, is rolled back when the connection is given back. -/
  release_unended {s : Session} : s.status = .opened ∨ s.status = .broken →
    Client.release s = { s.after [.rollback] with status := .idle }
  /-- Nothing else is sent for that. -/
  release_ended {s : Session} : s.status = .idle ∨ s.status = .ended →
    Client.release s = { s with status := .idle }

instance : LawfulClient where
  begin_run {s} hs := by
    show (Session.begin.run s = _ ∧ _) ∨ ∃ e, Session.begin.run s = _ ∧ _
    rcases Session.send_run .begin s with ⟨rows, hsend, haccepts⟩ | ⟨e, hsend, hrefused⟩
    · exact .inl ⟨Work.bind_run_ok hsend, haccepts⟩
    · exact .inr ⟨e, Work.bind_run_error hsend, hrefused⟩
  close_run {s} sql hs := by
    have hrun : (Client.close sql).run s =
        (Session.send ⟨sql, []⟩ >>= fun _ => Session.become .ended).run
          { s with status := .broken } := rfl
    rw [hrun]
    rcases Session.send_run ⟨sql, []⟩ { s with status := .broken } with ⟨rows, h, -⟩ | ⟨e, h, -⟩
    · rw [Work.bind_run_ok h]
      exact .inl rfl
    · rw [Work.bind_run_error h]
      exact .inr ⟨e, rfl⟩
  release_unended {s} hs := by
    show s.release = _
    rcases hs with hs | hs <;> rw [Session.release, hs] <;> rfl
  release_ended {s} hs := by
    show s.release = _
    rcases hs with hs | hs <;> rw [Session.release, hs]

namespace Session

variable {α β : Type} {s t : Session}

theorem finish_closed [Client] (hs : s.status ≠ .opened) (sql : String) :
    (finish sql).run s = (.error .noTransaction, s) := by
  rw [finish, read_bind_run]
  cases h : s.status with
  | opened => exact absurd h hs
  | _ => rfl

/-- The end is sent, and the transaction is over. -/
theorem finish_opened [Client] [LawfulClient] (hs : s.status = .opened) (sql : String) :
    (finish sql).run s = (.ok (), { s.after [⟨sql, []⟩] with status := .ended }) ∨
      ∃ e, (finish sql).run s = (.error e, { s.after [⟨sql, []⟩] with status := .broken }) := by
  have hclose : (finish sql).run s = (Client.close sql).run s := by
    rw [finish, read_bind_run, hs]
  rw [hclose]
  exact LawfulClient.close_run sql hs

/-! ## Computations inside a transaction -/

theorem query_extends {P : Statement → Prop} {sql : String} {params : List String}
    (h : P ⟨sql, params⟩) : (query sql params).Moves (Extends P) := by
  intro s
  by_cases hs : s.status = .opened
  · refine ⟨[⟨sql, params⟩], ?_, fun st hst => List.mem_singleton.mp hst ▸ h⟩
    rw [query_opened hs, send_state]
  · rw [query_closed hs]
    exact refl_of (Extends P) s

theorem decoded_extends {P : Statement → Prop} (r : Except DatabaseError α) :
    (decoded r).Moves (Extends P) := by
  cases r with
  | ok a => exact .pure a
  | error e => exact .fail (.database e)

/-- In an open transaction the computation sends these statements, up to the first one that the
server refuses. It succeeds exactly when none is refused. -/
def Performs (statements : List Statement) (w : Work Session α) : Prop :=
  ∀ s : Session, s.status = .opened →
    (∃ a, w.run s = (.ok a, s.after statements) ∧ s.server.Accepts s.sent statements) ∨
      ∃ e new, w.run s = (.error e, s.after new) ∧ new <+: statements ∧
        ¬ s.server.Accepts s.sent statements

theorem Performs.query (sql : String) (params : List String) :
    Performs [⟨sql, params⟩] (query sql params) := by
  intro s hs
  rw [query_opened hs]
  rcases send_run ⟨sql, params⟩ s with ⟨rows, hrun, haccepts⟩ | ⟨e, hrun, hrefused⟩
  · exact .inl ⟨rows, hrun, haccepts⟩
  · exact .inr ⟨e, _, hrun, List.prefix_rfl, hrefused⟩

theorem Performs.bind {w : Work Session α} {k : α → Work Session β}
    {first second : List Statement} (hw : Performs first w) (hk : ∀ a, Performs second (k a)) :
    Performs (first ++ second) (w >>= k) := by
  intro s hs
  rw [Server.accepts_append]
  rcases hw s hs with ⟨a, hrun, haccepts⟩ | ⟨e, new, hrun, hnew, hrefused⟩
  · rw [Work.bind_run_ok hrun]
    rcases hk a (s.after first) hs with ⟨b, hrun', haccepts'⟩ | ⟨e, new, hrun', hnew, hrefused⟩
    · refine .inl ⟨b, ?_, haccepts, haccepts'⟩
      rw [hrun', after_append]
    · refine .inr ⟨e, first ++ new, ?_, (List.prefix_append_right_inj first).mpr hnew, ?_⟩
      · rw [hrun', after_append]
      · exact fun h => hrefused h.2
  · refine .inr ⟨e, new, ?_, hnew.trans (List.prefix_append _ _), fun h => hrefused h.1⟩
    rw [Work.bind_run, hrun]

theorem Performs.pure (a : α) : Performs [] (Pure.pure a : Work Session α) :=
  fun _ _ => .inl ⟨a, rfl, trivial⟩

theorem Performs.discard {w : Work Session α} {statements : List Statement}
    (hw : Performs statements w) : Performs statements (w >>= fun _ => Pure.pure ()) :=
  statements.append_nil ▸ hw.bind fun _ => .pure ()

theorem Performs.forEach (sqls : List String) :
    Performs (sqls.map (⟨·, []⟩)) (Work.forEach (fun sql => Session.query sql []) sqls) := by
  induction sqls with
  | nil => exact .pure []
  | cons sql sqls ih =>
      refine (Performs.query sql []).bind fun rows => ?_
      have h := ih.bind fun rest => .pure (rows :: rest)
      rwa [List.append_nil] at h

end Session

/-! ## Statements of the operations -/

namespace Postgres

/-- The statements that read. -/
def readingSql (schema : String) : List String :=
  [loadSnapshotSql schema, snapshotsSql schema, columnsSql, indexesSql, stepStartedSql schema]

end Postgres

open Postgres

namespace Statement

/-- The statement only reads. -/
def Reads (schema : String) (st : Statement) : Prop := st.sql ∈ readingSql schema

theorem Reads.select {schema : String} {st : Statement} (h : st.Reads schema) :
    "SELECT ".toList <+: st.sql.toList := by
  have hall : ∀ sql ∈ readingSql schema, "SELECT ".toList <+: sql.toList := by
    rw [readingSql, List.forall_mem_cons, List.forall_mem_cons, List.forall_mem_cons,
      List.forall_mem_cons, List.forall_mem_singleton]
    refine ⟨?_, ?_, ?_, ?_, ?_⟩
    · exact prefix_append (prefix_append (by decide +kernel) _) _
    · exact prefix_append (prefix_append (by decide +kernel) _) _
    · exact prefix_append (prefix_append (by decide +kernel) _) _
    · unfold indexesSql
      iterate 7 refine prefix_append ?_ _
      decide +kernel
    · exact prefix_append (prefix_append (by decide +kernel) _) _
  exact hall st.sql h

theorem Reads.onTables {schema : String} {st : Statement} (h : st.Reads schema) : st.OnTables :=
  ⟨"SELECT ", by decide, h.select⟩

end Statement

namespace Session

variable {α : Type} {s t : Session} {w : Work Session α}

/-- None of the statements that were sent is an end. -/
theorem Extends.countP_isEnd (h : Extends Statement.OnTables s t) :
    ∃ new, t = s.after new ∧ new.countP Statement.isEnd = 0 := by
  obtain ⟨new, ht, htables⟩ := h
  refine ⟨new, ht, List.countP_eq_zero.mpr fun st hst => ?_⟩
  rw [(htables st hst).isEnd]
  exact Bool.false_ne_true

theorem reads_discard {schema : String} (hw : w.Moves (Extends (Statement.Reads schema))) :
    (w >>= fun _ => pure ()).Moves (Extends Statement.OnTables) :=
  Work.Moves.bind (hw.mono fun _ _ => Extends.mono fun _ => Statement.Reads.onTables)
    fun _ => .pure ()

/-- The computation changes tables by these statements. -/
structure Changes (statements : List Statement) (w : Work Session α) : Prop where
  performs : Performs statements w
  onTables : ∀ st ∈ statements, st.OnTables

theorem Changes.extends {statements : List Statement} (h : Changes statements w)
    (hs : s.status = .opened) : Extends Statement.OnTables s (w.run s).2 := by
  rcases h.performs s hs with ⟨a, hrun, -⟩ | ⟨e, new, hrun, hnew, -⟩
  · rw [hrun]
    exact ⟨statements, rfl, h.onTables⟩
  · rw [hrun]
    exact ⟨new, rfl, fun st hst => h.onTables st (hnew.subset hst)⟩

theorem changes_query {sql word : String} (hword : word ∈ Statement.tableWords)
    (h : word.toList <+: sql.toList) (params : List String) :
    Changes [⟨sql, params⟩] (query sql params >>= fun _ => pure ()) where
  performs := (Performs.query sql params).discard
  onTables := List.forall_mem_singleton.mpr ⟨word, hword, h⟩

end Session

namespace Postgres

open Session Statement

/-- The statements that create a namespace, without parameters. -/
def ensureSchemaStatements (schema : String) : List Statement :=
  (ensureSchemaSql schema).map (⟨·, []⟩)

variable [Json.Codec]

theorem readSnapshot_extends {P : Statement → Prop} (row : List Cell) :
    (readSnapshot row).Moves (Extends P) := by
  refine (decoded_extends _).bind fun table => (decoded_extends _).bind fun stored => ?_
  cases stored with
  | none => exact .pure _
  | some text =>
      dsimp only
      split
      · exact .fail .serialization
      · exact .pure _

theorem readIndex_extends {P : Statement → Prop} (row : String × String × String × String) :
    (readIndex row).Moves (Extends P) := by
  rw [readIndex]
  split
  · exact .fail .serialization
  · exact .pure _

variable [Client]

theorem ensureSchema_changes (schema : String) :
    Changes (ensureSchemaStatements schema) (backend.ensureSchema schema) where
  performs := (Performs.forEach (ensureSchemaSql schema)).discard
  onTables := by
    rw [ensureSchemaStatements, List.forall_mem_map, ensureSchemaSql, List.forall_mem_cons,
      List.forall_mem_cons, List.forall_mem_singleton]
    refine ⟨⟨"CREATE ", by decide, ?_⟩, ⟨"CREATE ", by decide, ?_⟩, ⟨"CREATE ", by decide, ?_⟩⟩
    · exact prefix_append (by decide +kernel) _
    · exact prefix_append (prefix_append (by decide +kernel) _) _
    · exact prefix_append (prefix_append (by decide +kernel) _) _

theorem saveSnapshot_changes (schema : String) (r : Relation) :
    Changes [⟨saveSnapshotSql schema, [r.table, r.snapshot]⟩] (backend.saveSnapshot schema r) :=
  changes_query (show "INSERT " ∈ tableWords by decide)
    (prefix_append (prefix_append (prefix_append (by decide +kernel) _) _) _) _

theorem startStep_changes (schema name : String) :
    Changes [⟨startStepSql schema, [name]⟩] (backend.startStep schema name) :=
  changes_query (show "INSERT " ∈ tableWords by decide)
    (prefix_append (prefix_append (by decide +kernel) _) _) _

theorem stopStep_changes (schema name : String) :
    Changes [⟨stopStepSql schema, [name]⟩] (backend.stopStep schema name) :=
  changes_query (show "DELETE " ∈ tableWords by decide)
    (prefix_append (prefix_append (by decide +kernel) _) _) _

theorem loadSnapshot_reads (schema table : String) :
    (backend.loadSnapshot schema table).Moves (Extends (Statement.Reads schema)) := by
  refine (query_extends (.head _)).bind fun rows => ?_
  cases rows with
  | nil => exact .pure _
  | cons row rows => exact readSnapshot_extends row

theorem snapshots_reads (schema : String) :
    (backend.snapshots schema).Moves (Extends (Statement.Reads schema)) :=
  (query_extends (.tail _ (.head _))).bind fun rows =>
    (decoded_extends _).bind fun _ => .forEach readSnapshot_extends rows

theorem liveColumns_reads (schema table : String) :
    (backend.liveColumns schema table).Moves (Extends (Statement.Reads schema)) :=
  (query_extends (.tail _ (.tail _ (.head _)))).bind fun _ => decoded_extends _

theorem liveIndexes_reads (schema table : String) :
    (backend.liveIndexes schema table).Moves (Extends (Statement.Reads schema)) :=
  (query_extends (.tail _ (.tail _ (.tail _ (.head _))))).bind fun _ =>
    (decoded_extends _).bind fun rows => .forEach readIndex_extends rows

theorem stepStarted_reads (schema name : String) :
    (backend.stepStarted schema name).Moves (Extends (Statement.Reads schema)) := by
  refine (query_extends (.tail _ (.tail _ (.tail _ (.tail _ (.head _)))))).bind fun rows => ?_
  cases rows with
  | nil => exact .pure _
  | cons row rows => exact (decoded_extends _).bind fun _ => .pure _

end Postgres

end SchemaEvolution
