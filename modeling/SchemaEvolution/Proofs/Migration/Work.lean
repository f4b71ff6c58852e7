import SchemaEvolution.Migration.Work
import Mathlib.Tactic

set_option autoImplicit false

/-! # Work that succeeds

One lemma for each way of building a computation says when it succeeds, with which value and in
which state. A computation that is known to have succeeded is taken apart with them, and one that
has to succeed is put together. One that fails does so in its first part, or in what follows it.

What a computation does to the state, whether it succeeds or not, is a relation that its parts
respect as well (`Work.Moves`). What its errors have in common, its parts have in common too
(`Work.FailsAs`).
-/

namespace SchemaEvolution.Work

variable {σ α β : Type} {w : Work σ α} {s t : σ} {a : α}

instance : LawfulMonad (Work σ) := by
  refine .mk' _ (fun w => ?_) (fun _ _ => rfl) (fun w k l => ?_)
  · funext s
    show (w >>= fun a => pure (id a)).run s = w.run s
    rw [bind_run]
    rcases w.run s with ⟨_ | _, t⟩ <;> rfl
  · funext s
    show (w >>= k >>= l).run s = (w >>= fun a => k a >>= l).run s
    rw [bind_run, bind_run, bind_run]
    rcases w.run s with ⟨_ | _, t⟩ <;> rfl

theorem run_eq_ok (h : (w.run s).1 = .ok a) : w.run s = (.ok a, (w.run s).2) := Prod.ext h rfl

theorem pure_eq_ok {b : α} : (pure a : Work σ α).run s = (.ok b, t) ↔ a = b ∧ s = t := by
  rw [pure_run, Prod.mk.injEq, Except.ok.injEq]

theorem bind_eq_ok {k : α → Work σ β} {b : β} :
    (w >>= k).run s = (.ok b, t) ↔ ∃ a u, w.run s = (.ok a, u) ∧ (k a).run u = (.ok b, t) := by
  rw [bind_run]
  constructor
  · intro h
    split at h
    · next a u hw => exact ⟨a, u, hw, h⟩
    · cases h
  · rintro ⟨a, u, hw, hk⟩
    rw [hw]
    exact hk

/-- A computation goes on where its first part ended. -/
theorem bind_run_ok {k : α → Work σ β} (h : w.run s = (.ok a, t)) :
    (w >>= k).run s = (k a).run t := by
  rw [bind_run, h]

/-- A computation stops where its first part failed. -/
theorem bind_run_error {k : α → Work σ β} {e : MigrationError} (h : w.run s = (.error e, t)) :
    (w >>= k).run s = (.error e, t) := by
  rw [bind_run, h]

/-- What follows the first part may leave the state alone. -/
theorem bind_run_state {k : α → Work σ β} (hk : ∀ a t, ((k a).run t).2 = t) :
    ((w >>= k).run s).2 = (w.run s).2 := by
  rw [bind_run]
  rcases w.run s with ⟨e | a, t⟩
  · rfl
  · exact hk a t

theorem bind_eq_error {k : α → Work σ β} {e : MigrationError} :
    (w >>= k).run s = (.error e, t) ↔
      w.run s = (.error e, t) ∨ ∃ a u, w.run s = (.ok a, u) ∧ (k a).run u = (.error e, t) := by
  rw [bind_run]
  rcases w.run s with ⟨r, u⟩
  cases r with
  | ok a =>
      constructor
      · intro h
        exact .inr ⟨a, u, rfl, h⟩
      · rintro (h | ⟨b, v, hb, h⟩)
        · cases h
        · cases hb
          exact h
  | error e' =>
      constructor
      · intro h
        cases h
        exact .inl rfl
      · rintro (h | ⟨a, v, h, -⟩)
        · cases h
          rfl
        · cases h

theorem ofExcept_eq_ok {r : Except SchemaError α} :
    (ofExcept r : Work σ α).run s = (.ok a, t) ↔ r = .ok a ∧ s = t := by
  cases r with
  | error e =>
      constructor
      · intro h
        cases h
      · rintro ⟨h, -⟩
        cases h
  | ok b =>
      show (Except.ok b, s) = (Except.ok a, t) ↔ _
      rw [Prod.mk.injEq, Except.ok.injEq, Except.ok.injEq]

theorem inPhase_run (phase : Phase) (table : String) (w : Work σ α) (s : σ) :
    (w.inPhase phase table).run s =
      match w.run s with
      | (.ok a, s) => (.ok a, s)
      | (.error e, s) => (.error (.inPhase phase table e), s) := rfl

theorem inPhase_eq_ok {phase : Phase} {table : String} :
    (w.inPhase phase table).run s = (.ok a, t) ↔ w.run s = (.ok a, t) := by
  rw [inPhase_run]
  split
  · next hw => rw [hw]
  · next hw =>
    rw [hw]
    constructor <;> intro h <;> cases h

theorem inPhase_eq_error {phase : Phase} {table : String} {e : MigrationError} :
    (w.inPhase phase table).run s = (.error e, t) ↔
      ∃ cause, w.run s = (.error cause, t) ∧ .inPhase phase table cause = e := by
  rw [inPhase_run]
  split
  · next hw =>
    rw [hw]
    constructor
    · intro h
      cases h
    · rintro ⟨_, h, -⟩
      cases h
  · next cause u hw =>
    rw [hw]
    constructor
    · intro h
      cases h
      exact ⟨cause, rfl, rfl⟩
    · rintro ⟨_, h, rfl⟩
      cases h
      rfl

/-- A phase is looked at only when something fails. -/
theorem bind_inPhase_run_ok {k : α → Work σ β} {phase : Phase} {table : String}
    (h : w.run s = (.ok a, t)) : (w.inPhase phase table >>= k).run s = (k a).run t :=
  bind_run_ok (inPhase_eq_ok.mpr h)

theorem orCleanUp_run (w : Work σ α) (cleanup : Work σ Unit) (s : σ) :
    (w.orCleanUp cleanup).run s =
      match w.run s with
      | (.ok a, s) => (.ok a, s)
      | (.error e, s) => (.error e, (cleanup.run s).2) := rfl

theorem orCleanUp_eq_ok {cleanup : Work σ Unit} :
    (w.orCleanUp cleanup).run s = (.ok a, t) ↔ w.run s = (.ok a, t) := by
  rw [orCleanUp_run]
  split
  · next hw => rw [hw]
  · next hw =>
    rw [hw]
    constructor <;> intro h <;> cases h

theorem attempt_eq_ok {r : Except MigrationError α} :
    w.attempt.run s = (.ok r, t) ↔ w.run s = (r, t) := by
  show (Except.ok (w.run s).1, (w.run s).2) = (Except.ok r, t) ↔ _
  rw [Prod.mk.injEq, Except.ok.injEq, Prod.ext_iff]

/-! ## What a computation does to the state -/

/-- Whether it succeeds or fails, the computation takes every state along `R`. -/
def Moves (R : σ → σ → Prop) (w : Work σ α) : Prop := ∀ s, R s (w.run s).2

namespace Moves

variable {R : σ → σ → Prop}

theorem of_run (h : w.Moves R) {r : Except MigrationError α} (hw : w.run s = (r, t)) : R s t := by
  have hs := h s
  rwa [hw] at hs

/-- Without a look at the outcome, `attempt` and `inPhase` do the same to the state. -/
theorem attempt (h : w.Moves R) : w.attempt.Moves R := h

theorem inPhase (h : w.Moves R) (phase : Phase) (table : String) :
    (w.inPhase phase table).Moves R := by
  intro s
  have hs := h s
  rw [inPhase_run]
  split
  · next hw => rwa [hw] at hs
  · next hw => rwa [hw] at hs

theorem mono {R' : σ → σ → Prop} (h : w.Moves R) (hR : ∀ s t, R s t → R' s t) : w.Moves R' :=
  fun s => hR _ _ (h s)

variable [IsPreorder σ R]

theorem of_outcome {outcome : Except MigrationError α} (h : ∀ s, w.run s = (outcome, s)) :
    w.Moves R := by
  intro s
  rw [h]
  exact refl_of R s

theorem pure (a : α) : (Pure.pure a : Work σ α).Moves R := of_outcome fun _ => rfl

theorem fail (e : MigrationError) : (Work.fail e : Work σ α).Moves R := of_outcome fun _ => rfl

theorem ofExcept (r : Except SchemaError α) : (Work.ofExcept r : Work σ α).Moves R := by
  cases r with
  | ok a => exact pure a
  | error e => exact fail (.model e)

theorem read : (Work.read : Work σ σ).Moves R := fun s => refl_of R s

theorem bind {k : α → Work σ β} (hw : w.Moves R) (hk : ∀ a, (k a).Moves R) :
    (w >>= k).Moves R := by
  intro s
  rw [bind_run]
  split
  · next a t hrun => exact trans_of R (hw.of_run hrun) (hk a t)
  · next e t hrun => exact hw.of_run hrun

theorem orCleanUp {cleanup : Work σ Unit} (hw : w.Moves R) (hcleanup : cleanup.Moves R) :
    (w.orCleanUp cleanup).Moves R := by
  intro s
  rw [orCleanUp_run]
  split
  · next a t hrun => exact hw.of_run hrun
  · next e t hrun => exact trans_of R (hw.of_run hrun) (hcleanup t)

theorem forEach {f : β → Work σ α} (hf : ∀ b, (f b).Moves R) (bs : List β) :
    (Work.forEach f bs).Moves R := by
  induction bs with
  | nil => exact pure []
  | cons b bs ih => exact bind (hf b) fun a => bind ih fun as => pure (a :: as)

end Moves

/-! ## What an error says -/

/-- Whatever error the computation fails with satisfies `P`. -/
def FailsAs (P : MigrationError → Prop) (w : Work σ α) : Prop :=
  ∀ s e t, w.run s = (.error e, t) → P e

namespace FailsAs

variable {P : MigrationError → Prop}

theorem of_run (h : w.FailsAs P) {e : MigrationError} (hw : w.run s = (.error e, t)) : P e :=
  h s e t hw

theorem pure (a : α) : (Pure.pure a : Work σ α).FailsAs P := by
  intro s e t h
  cases h

/-- An error that is wrapped says what the wrapper says, whatever it was before. -/
theorem inPhase {phase : Phase} {table : String} (h : ∀ cause, P (.inPhase phase table cause))
    (w : Work σ α) : (w.inPhase phase table).FailsAs P := by
  intro s e t hrun
  obtain ⟨cause, -, rfl⟩ := inPhase_eq_error.mp hrun
  exact h cause

/-- What follows the first part need be known on the values only that the first part gives. -/
theorem bind_of {k : α → Work σ β} (hw : w.FailsAs P)
    (hk : ∀ a s t, w.run s = (.ok a, t) → (k a).FailsAs P) : (w >>= k).FailsAs P := by
  intro s e t hrun
  rcases bind_eq_error.mp hrun with hfirst | ⟨a, u, hfirst, hnext⟩
  · exact hw.of_run hfirst
  · exact (hk a s u hfirst).of_run hnext

theorem bind {k : α → Work σ β} (hw : w.FailsAs P) (hk : ∀ a, (k a).FailsAs P) :
    (w >>= k).FailsAs P :=
  hw.bind_of fun a _ _ _ => hk a

theorem forEach {f : β → Work σ α} (hf : ∀ b, (f b).FailsAs P) (bs : List β) :
    (Work.forEach f bs).FailsAs P := by
  induction bs with
  | nil => exact pure []
  | cons b bs ih => exact bind (hf b) fun a => bind ih fun as => pure (a :: as)

end FailsAs

end SchemaEvolution.Work
