import SchemaEvolution.Proofs.Migration.Memory

set_option autoImplicit false

/-! # Units of work

A backend is transactional when its operations work on a staged content of their own, which becomes
the committed one when the unit of work is committed and is given up when it is rolled back
(`Backend.Transactional`). An operation may fail at any call; ending the unit of work does not.

Whatever is put together from the operations other than commit and rollback (`Backend.Within`)
behaves as one such operation (`Backend.Within.inner`). The backend in memory is transactional
(`Memory.transactional`).
-/

namespace SchemaEvolution

/-- What is seen of a database on which a unit of work is open. -/
structure Observation (σ Content : Type) where
  /-- The content that others see. -/
  committed : σ → Content
  /-- The content that the unit of work sees. -/
  staged : σ → Content
  /-- The number of times a commit was called for. -/
  commits : σ → Nat
  /-- The number of times a rollback was called for. -/
  rollbacks : σ → Nat
  /-- Commit and rollback do not fail. -/
  Ends : σ → Prop
  /-- No operation fails but for what the database contains. -/
  Faultless : σ → Prop

namespace Observation

variable {σ Content : Type} (o : Observation σ Content)

/-- What work inside a unit of work leaves as it is. -/
structure Kept (s t : σ) : Prop where
  ends : o.Ends t
  committed : o.committed t = o.committed s
  commits : o.commits t = o.commits s
  rollbacks : o.rollbacks t = o.rollbacks s

/-- What a commit does. -/
structure Published (s t : σ) : Prop where
  ends : o.Ends t
  committed : o.committed t = o.staged s
  staged : o.staged t = o.staged s
  commits : o.commits t = o.commits s + 1
  rollbacks : o.rollbacks t = o.rollbacks s
  faultless : o.Faultless s → o.Faultless t

/-- What a rollback does. -/
structure Discarded (s t : σ) : Prop where
  ends : o.Ends t
  committed : o.committed t = o.committed s
  staged : o.staged t = o.committed s
  commits : o.commits t = o.commits s
  rollbacks : o.rollbacks t = o.rollbacks s + 1
  faultless : o.Faultless s → o.Faultless t

/-- Two databases without faults and of one content. -/
structure Alike (s s' : σ) : Prop where
  left : o.Faultless s
  right : o.Faultless s'
  committed : o.committed s = o.committed s'
  staged : o.staged s = o.staged s'

/-- Work that without faults depends on the content only. -/
def Determined {α : Type} (w : Work σ α) : Prop :=
  ∀ s s', o.Alike s s' → (w.run s).1 = (w.run s').1 ∧ o.Alike (w.run s).2 (w.run s').2

/-- Work inside a unit of work: nobody else sees anything of it. -/
structure Inner {α : Type} (w : Work σ α) : Prop where
  kept : ∀ s, o.Ends s → o.Kept s (w.run s).2
  determined : o.Determined w

variable {o}

theorem Kept.refl {s : σ} (h : o.Ends s) : o.Kept s s := ⟨h, rfl, rfl, rfl⟩

theorem Kept.trans {s t u : σ} (hst : o.Kept s t) (htu : o.Kept t u) : o.Kept s u where
  ends := htu.ends
  committed := htu.committed.trans hst.committed
  commits := htu.commits.trans hst.commits
  rollbacks := htu.rollbacks.trans hst.rollbacks

theorem Alike.published {s s' t t' : σ} (h : o.Alike s s') (ht : o.Published s t)
    (ht' : o.Published s' t') : o.Alike t t' where
  left := ht.faultless h.left
  right := ht'.faultless h.right
  committed := by rw [ht.committed, ht'.committed, h.staged]
  staged := by rw [ht.staged, ht'.staged, h.staged]

theorem Alike.discarded {s s' t t' : σ} (h : o.Alike s s') (ht : o.Discarded s t)
    (ht' : o.Discarded s' t') : o.Alike t t' where
  left := ht.faultless h.left
  right := ht'.faultless h.right
  committed := by rw [ht.committed, ht'.committed, h.committed]
  staged := by rw [ht.staged, ht'.staged, h.committed]

section Combinators

variable {α β : Type} {w : Work σ α} {k : α → Work σ β}

theorem Determined.outcome (hw : o.Determined w) {s s' : σ} (h : o.Alike s s') :
    ∃ r t t', w.run s = (r, t) ∧ w.run s' = (r, t') ∧ o.Alike t t' := by
  obtain ⟨hresult, hnext⟩ := hw s s' h
  exact ⟨(w.run s).1, (w.run s).2, (w.run s').2, rfl, Prod.ext hresult.symm rfl, hnext⟩

theorem Determined.bind (hw : o.Determined w) (hk : ∀ a, o.Determined (k a)) :
    o.Determined (w >>= k) := by
  intro s s' h
  obtain ⟨r, t, t', hrun, hrun', hnext⟩ := hw.outcome h
  rw [Work.bind_run, Work.bind_run, hrun, hrun']
  cases r with
  | error e => exact ⟨rfl, hnext⟩
  | ok a => exact hk a t t' hnext

theorem Determined.orCleanUp {cleanup : Work σ Unit} (hw : o.Determined w)
    (hcleanup : o.Determined cleanup) : o.Determined (w.orCleanUp cleanup) := by
  intro s s' h
  obtain ⟨r, t, t', hrun, hrun', hnext⟩ := hw.outcome h
  rw [Work.orCleanUp_run, Work.orCleanUp_run, hrun, hrun']
  cases r with
  | error e => exact ⟨rfl, (hcleanup t t' hnext).2⟩
  | ok a => exact ⟨rfl, hnext⟩

/-- Work that leaves the database alone. -/
theorem Determined.of_outcome {outcome : Except MigrationError α}
    (h : ∀ s, w.run s = (outcome, s)) : o.Determined w := by
  intro s s' halike
  rw [h, h]
  exact ⟨rfl, halike⟩

theorem Inner.of_outcome {outcome : Except MigrationError α} (h : ∀ s, w.run s = (outcome, s)) :
    o.Inner w where
  kept s hs := by
    rw [h]
    exact .refl hs
  determined := .of_outcome h

theorem Inner.bind (hw : o.Inner w) (hk : ∀ a, o.Inner (k a)) : o.Inner (w >>= k) where
  kept s hs := by
    have hfirst := hw.kept s hs
    rw [Work.bind_run]
    split
    · next a t hrun =>
      rw [hrun] at hfirst
      exact hfirst.trans ((hk a).kept t hfirst.ends)
    · next e t hrun =>
      rw [hrun] at hfirst
      exact hfirst
  determined := hw.determined.bind fun a => (hk a).determined

theorem Inner.attempt (hw : o.Inner w) : o.Inner w.attempt where
  kept s hs := hw.kept s hs
  determined s s' h := by
    obtain ⟨hresult, hnext⟩ := hw.determined s s' h
    exact ⟨congrArg Except.ok hresult, hnext⟩

theorem Inner.pure (a : α) : o.Inner (Pure.pure a : Work σ α) := .of_outcome fun _ => rfl

theorem Inner.fail (e : MigrationError) : o.Inner (Work.fail e : Work σ α) :=
  .of_outcome fun _ => rfl

end Combinators

end Observation

namespace Backend

variable {σ : Type}

/-- The operations other than those that end the unit of work. -/
inductive Operation (b : Backend σ) : {α : Type} → Work σ α → Prop where
  | ensureSchema (schema : String) : Operation b (b.ensureSchema schema)
  | execute (sql : String) : Operation b (b.execute sql)
  | loadSnapshot (schema table : String) : Operation b (b.loadSnapshot schema table)
  | saveSnapshot (schema : String) (r : Relation) : Operation b (b.saveSnapshot schema r)
  | snapshots (schema : String) : Operation b (b.snapshots schema)
  | liveColumns (schema table : String) : Operation b (b.liveColumns schema table)
  | liveIndexes (schema table : String) : Operation b (b.liveIndexes schema table)
  | startStep (schema name : String) : Operation b (b.startStep schema name)
  | stepStarted (schema name : String) : Operation b (b.stepStarted schema name)
  | stopStep (schema name : String) : Operation b (b.stopStep schema name)

/-- A computation that reaches the database through operations other than commit and rollback
only, and keeps nothing of its own. It may depend on their results and catch their errors. -/
inductive Within (b : Backend σ) : {α : Type} → Work σ α → Prop where
  | pure {α : Type} (a : α) : Within b (Pure.pure a : Work σ α)
  | fail {α : Type} (e : MigrationError) : Within b (Work.fail e : Work σ α)
  | operation {α : Type} {w : Work σ α} (h : b.Operation w) : Within b w
  | bind {α β : Type} {w : Work σ α} {k : α → Work σ β} (hw : Within b w)
    (hk : ∀ a, Within b (k a)) : Within b (w >>= k)
  | attempt {α : Type} {w : Work σ α} (hw : Within b w) : Within b w.attempt

/-- A backend that is seen as a unit of work on a content. -/
structure Transactional {Content : Type} (b : Backend σ) (o : Observation σ Content) : Prop where
  operation : ∀ {α : Type} {w : Work σ α}, b.Operation w → o.Inner w
  commit : ∀ s, o.Ends s → ∃ t, b.commit.run s = (.ok (), t) ∧ o.Published s t
  rollback : ∀ s, o.Ends s → ∃ t, b.rollback.run s = (.ok (), t) ∧ o.Discarded s t
  ends_of_faultless : ∀ s, o.Faultless s → o.Ends s

section Ends

variable {Content : Type} {b : Backend σ} {o : Observation σ Content}

theorem Transactional.commit_determined (hb : b.Transactional o) : o.Determined b.commit := by
  intro s s' h
  obtain ⟨t, hcommit, ht⟩ := hb.commit s (hb.ends_of_faultless s h.left)
  obtain ⟨t', hcommit', ht'⟩ := hb.commit s' (hb.ends_of_faultless s' h.right)
  rw [hcommit, hcommit']
  exact ⟨rfl, h.published ht ht'⟩

theorem Transactional.rollback_determined (hb : b.Transactional o) : o.Determined b.rollback := by
  intro s s' h
  obtain ⟨t, hrollback, ht⟩ := hb.rollback s (hb.ends_of_faultless s h.left)
  obtain ⟨t', hrollback', ht'⟩ := hb.rollback s' (hb.ends_of_faultless s' h.right)
  rw [hrollback, hrollback']
  exact ⟨rfl, h.discarded ht ht'⟩

end Ends

namespace Within

variable {b : Backend σ} {α β : Type}

/-- Work within a unit of work behaves as the operations do. -/
theorem inner {Content : Type} {o : Observation σ Content} (hb : b.Transactional o)
    {w : Work σ α} (hw : b.Within w) : o.Inner w := by
  induction hw with
  | pure a => exact .pure a
  | fail e => exact .fail e
  | operation h => exact hb.operation h
  | bind _ _ ihw ihk => exact .bind ihw ihk
  | attempt _ ih => exact .attempt ih

theorem inPhase {w : Work σ α} (hw : b.Within w) (phase : Phase) (table : String) :
    b.Within (w.inPhase phase table) := by
  -- naming the phase of an error is catching the error and failing with another one
  have hcaught : w.inPhase phase table = w.attempt >>= fun r =>
      match r with
      | .ok a => Pure.pure a
      | .error e => Work.fail (.inPhase phase table e) := by
    funext s
    show (w.inPhase phase table).run s = (w.attempt >>= _).run s
    rw [Work.inPhase_run]
    rcases hrun : w.run s with ⟨r, t⟩
    rw [Work.bind_run_ok (Work.attempt_eq_ok.mpr hrun)]
    cases r <;> rfl
  rw [hcaught]
  refine .bind hw.attempt fun r => ?_
  cases r with
  | ok a => exact .pure a
  | error e => exact .fail _

theorem ofExcept (r : Except SchemaError α) : b.Within (Work.ofExcept r : Work σ α) := by
  cases r with
  | ok a => exact .pure a
  | error e => exact .fail (.model e)

theorem forEach {f : β → Work σ α} (hf : ∀ x, b.Within (f x)) (xs : List β) :
    b.Within (Work.forEach f xs) := by
  induction xs with
  | nil => exact .pure []
  | cons x xs ih => exact .bind (hf x) fun a => .bind ih fun as => .pure (a :: as)

end Within

end Backend

/-! ## The backend in memory -/

namespace Memory

/-- What is seen of a database in memory. Its live columns and further live indexes are given. -/
def observation : Observation Memory
    (Content × List (String × List LiveColumn) × List (String × List LiveIndex)) where
  committed s := (s.committed, s.liveColumns, s.extraIndexes)
  staged s := (s.staged, s.liveColumns, s.extraIndexes)
  commits s := s.calls.count "commit"
  rollbacks s := s.calls.count "rollback"
  Ends s := ∀ calls, s.fault ("commit" :: calls) = none ∧ s.fault ("rollback" :: calls) = none
  Faultless := Faultless

theorem call_state (parts : List String) (s : Memory) :
    ((call parts).run s).2 = s.noted parts := by
  simp only [call, Work.run]
  split <;> rfl

/-- The text of a call with arguments has a blank, so it ends no unit of work. -/
theorem not_ending {text : String} (h : ' ' ∈ text.toList) :
    text ≠ "commit" ∧ text ≠ "rollback" := by
  constructor <;> rintro rfl <;> exact absurd h (by decide)

theorem inner_call {parts : List String} (h : ' ' ∈ (" ".intercalate parts).toList) :
    observation.Inner (call parts) where
  kept s hs := by
    obtain ⟨hcommit, hrollback⟩ := not_ending h
    rw [call_state]
    exact ⟨hs, rfl, List.count_cons_of_ne hcommit, List.count_cons_of_ne hrollback⟩
  determined s s' hss' := by
    rw [call_run hss'.left, call_run hss'.right]
    exact ⟨rfl, hss'.left, hss'.right, hss'.committed, hss'.staged⟩

theorem inner_stage (f : Content → Content) : observation.Inner (stage f) where
  kept s hs := ⟨hs, rfl, rfl, rfl⟩
  determined s s' h := by
    refine ⟨rfl, h.left, h.right, h.committed, ?_⟩
    obtain ⟨hstaged, hrest⟩ := Prod.ext_iff.mp h.staged
    exact Prod.ext (congrArg f hstaged) hrest

/-- Reading the content is work within. -/
theorem inner_read {α β : Type} {f : Memory → β} {k : β → Work Memory α}
    (hf : ∀ s s', observation.Alike s s' → f s = f s') (hk : ∀ b, observation.Inner (k b)) :
    observation.Inner (Work.read >>= fun s => k (f s)) where
  kept s hs := (hk (f s)).kept s hs
  determined s s' h := by
    have hread : ∀ u, (Work.read >>= fun s => k (f s)).run u = (k (f u)).run u := fun _ => rfl
    rw [hread, hread, ← hf s s' h]
    exact (hk (f s)).determined s s' h

theorem blank_mem_two (op first : String) : ' ' ∈ (" ".intercalate [op, first]).toList := by
  show ' ' ∈ (op ++ " " ++ first).toList
  simp

theorem blank_mem_three (op first second : String) :
    ' ' ∈ (" ".intercalate [op, first, second]).toList := by
  show ' ' ∈ (op ++ " " ++ first ++ " " ++ second).toList
  simp

theorem Alike.content {s s' : Memory} (h : observation.Alike s s') :
    s.committed = s'.committed ∧ s.staged = s'.staged ∧ s.liveColumns = s'.liveColumns
      ∧ s.extraIndexes = s'.extraIndexes := by
  have hcommitted := h.committed
  have hstaged := h.staged
  simp only [observation, Prod.mk.injEq] at hcommitted hstaged
  exact ⟨hcommitted.1, hstaged.1, hcommitted.2⟩

theorem inner_operation [Json.Codec] {α : Type} {w : Work Memory α}
    (h : backend.Operation w) : observation.Inner w := by
  cases h with
  | ensureSchema schema => exact .bind (inner_call (blank_mem_two _ _)) fun _ => inner_stage _
  | execute sql => exact inner_call (blank_mem_two _ _)
  | loadSnapshot schema table =>
      refine .bind (inner_call (blank_mem_three _ _ _)) fun _ => inner_read (fun s s' h => ?_) .pure
      rw [(Alike.content h).2.1]
  | saveSnapshot schema r =>
      refine .bind (inner_call (blank_mem_three _ _ _)) fun _ => ?_
      cases Relation.ofSnapshot? r.snapshot with
      | none => exact .fail _
      | some stored => exact inner_stage _
  | snapshots schema =>
      refine .bind (inner_call (blank_mem_two _ _)) fun _ => inner_read (fun s s' h => ?_) .pure
      rw [(Alike.content h).2.1]
  | liveColumns schema table =>
      refine .bind (inner_call (blank_mem_three _ _ _)) fun _ => inner_read (fun s s' h => ?_) .pure
      rw [(Alike.content h).2.2.1]
  | liveIndexes schema table =>
      refine .bind (inner_call (blank_mem_three _ _ _)) fun _ => inner_read (fun s s' h => ?_) .pure
      rw [indexesOf, indexesOf, (Alike.content h).1, (Alike.content h).2.2.2]
  | startStep schema name =>
      refine .bind (inner_call (blank_mem_three _ _ _)) fun _ => ?_
      have hstep : ∀ started : Bool, observation.Inner (if started then
          Work.fail (.database (.invalidData ("duplicate step: " ++ name)))
          else stage fun c => { c with steps := c.steps ++ [name] }) := by
        intro started
        split
        · exact .fail _
        · exact inner_stage _
      refine inner_read (fun s s' h => ?_) hstep
      rw [(Alike.content h).2.1]
  | stepStarted schema name =>
      refine .bind (inner_call (blank_mem_three _ _ _)) fun _ => inner_read (fun s s' h => ?_) .pure
      rw [(Alike.content h).2.1]
  | stopStep schema name => exact .bind (inner_call (blank_mem_three _ _ _)) fun _ => inner_stage _

theorem ending_run {s : Memory} {op : String} (h : s.fault (op :: s.calls) = none) :
    (call [op]).run s = (.ok (), s.noted [op]) :=
  call_eq_ok.mpr ⟨h, rfl⟩

/-- The backend in memory is one unit of work, whatever fault its operations ask. -/
theorem transactional [Json.Codec] : backend.Transactional observation where
  operation := inner_operation
  commit s hs := by
    refine ⟨s.published, ?_, hs, rfl, rfl, ?_, ?_, id⟩
    · show (call _ >>= _).run s = _
      rw [Work.bind_run_ok (ending_run (hs s.calls).1)]
      rfl
    · show ("commit" :: s.calls).count "commit" = _
      exact List.count_cons_self
    · show ("commit" :: s.calls).count "rollback" = _
      exact List.count_cons_of_ne (by decide)
  rollback s hs := by
    refine ⟨{ s.noted ["rollback"] with staged := s.committed }, ?_, hs, rfl, rfl, ?_, ?_, id⟩
    · show (call _ >>= _).run s = _
      rw [Work.bind_run_ok (ending_run (hs s.calls).2)]
      rfl
    · show ("rollback" :: s.calls).count "commit" = _
      exact List.count_cons_of_ne (by decide)
    · show ("rollback" :: s.calls).count "rollback" = _
      exact List.count_cons_self
  ends_of_faultless s hs calls := ⟨hs _, hs _⟩

end Memory

end SchemaEvolution
