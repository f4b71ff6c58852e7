import Mathlib.Tactic

set_option autoImplicit false

/-! # Lists of checked results, of joined parts, of named values and of steps

A list of computations that may fail succeeds when each of them does (`mapM_eq_ok_iff`). Parts that
are joined by a separator they do not hold can be read back (`intercalate_inj`). A run
executes the entries of a list one after the other; `SafeRun` says that each of them is allowed in
the state that it meets, and is proved entry by entry.
-/

namespace SchemaEvolution

/-! ## Checked results -/

theorem mapM_eq_ok_iff {ε α β : Type} {f : α → Except ε β} {as : List α} {bs : List β} :
    as.mapM f = .ok bs ↔ List.Forall₂ (fun a b => f a = .ok b) as bs := by
  induction as generalizing bs with
  | nil =>
      rw [List.forall₂_nil_left_iff, List.mapM_nil]
      show (Except.ok [] = Except.ok bs) ↔ bs = []
      rw [Except.ok.injEq, eq_comm]
  | cons a as ih =>
      rw [List.mapM_cons, List.forall₂_cons_left_iff]
      cases ha : f a with
      | error e =>
          constructor
          · intro h
            cases h
          · rintro ⟨b, -, hb, -⟩
            cases hb
      | ok b =>
          cases has : as.mapM f with
          | error e =>
              constructor
              · intro h
                cases h
              · rintro ⟨-, bs', -, hbs, -⟩
                rw [ih.mpr hbs] at has
                cases has
          | ok bs' =>
              constructor
              · intro h
                cases h
                exact ⟨b, bs', rfl, ih.mp has, rfl⟩
              · rintro ⟨c, cs, hc, hcs, rfl⟩
                rw [ih.mpr hcs] at has
                cases hc
                cases has
                rfl

theorem exists_arg_of_mapM {ε α β : Type} {f : α → Except ε β} {as : List α} {bs : List β}
    (h : as.mapM f = .ok bs) {b : β} (hb : b ∈ bs) : ∃ a ∈ as, f a = .ok b := by
  rw [mapM_eq_ok_iff] at h
  induction h with
  | nil => cases hb
  | @cons a c as bs hc _ ih =>
      rcases List.mem_cons.mp hb with rfl | hb
      · exact ⟨a, List.mem_cons_self, hc⟩
      · obtain ⟨a', ha', hb⟩ := ih hb
        exact ⟨a', List.mem_cons_of_mem a ha', hb⟩

theorem exists_result_of_mapM {ε α β : Type} {f : α → Except ε β} {as : List α} {bs : List β}
    (h : as.mapM f = .ok bs) {a : α} (ha : a ∈ as) : ∃ b ∈ bs, f a = .ok b := by
  rw [mapM_eq_ok_iff] at h
  induction h with
  | nil => cases ha
  | @cons c b as bs hc _ ih =>
      rcases List.mem_cons.mp ha with rfl | ha
      · exact ⟨b, List.mem_cons_self, hc⟩
      · obtain ⟨b', hb', ha⟩ := ih ha
        exact ⟨b', List.mem_cons_of_mem b hb', ha⟩

/-- A list of computations succeeds as soon as each of them does. -/
theorem mapM_ok_of_forall {ε α β : Type} {f : α → Except ε β} {as : List α}
    (h : ∀ a ∈ as, ∃ b, f a = .ok b) : ∃ bs, as.mapM f = .ok bs := by
  induction as with
  | nil => exact ⟨[], rfl⟩
  | cons a as ih =>
      obtain ⟨b, hb⟩ := h a List.mem_cons_self
      obtain ⟨bs, hbs⟩ := ih fun c hc => h c (List.mem_cons_of_mem a hc)
      exact ⟨b :: bs, mapM_eq_ok_iff.mpr (.cons hb (mapM_eq_ok_iff.mp hbs))⟩

/-- A list of computations fails as the first one that does. -/
theorem mapM_eq_error_iff {ε α β : Type} {f : α → Except ε β} {as : List α} {e : ε} :
    as.mapM f = .error e ↔ ∃ before a after, as = before ++ a :: after
      ∧ (∀ b ∈ before, ∃ c, f b = .ok c) ∧ f a = .error e := by
  constructor
  · intro h
    induction as with
    | nil => cases h
    | cons a as ih =>
        rw [List.mapM_cons] at h
        cases ha : f a with
        | error e' =>
            rw [ha] at h
            cases h
            exact ⟨[], a, as, rfl, by simp, ha⟩
        | ok b =>
            rw [ha] at h
            cases has : as.mapM f with
            | ok bs =>
                rw [has] at h
                cases h
            | error e' =>
                rw [has] at h
                cases h
                obtain ⟨before, a', after, rfl, hbefore, ha'⟩ := ih has
                refine ⟨a :: before, a', after, rfl, ?_, ha'⟩
                rintro c (_ | ⟨_, hc⟩)
                · exact ⟨b, ha⟩
                · exact hbefore c hc
  · rintro ⟨before, a, after, rfl, hbefore, ha⟩
    obtain ⟨bs, hbs⟩ := mapM_ok_of_forall hbefore
    rw [List.mapM_append, hbs, List.mapM_cons, ha]
    rfl

theorem mapM_congr {ε α β : Type} {f g : α → Except ε β} {as : List α}
    (h : ∀ a ∈ as, f a = g a) : as.mapM f = as.mapM g := by
  induction as with
  | nil => rfl
  | cons a as ih =>
      rw [List.mapM_cons, List.mapM_cons, h a List.mem_cons_self,
        ih fun b hb => h b (List.mem_cons_of_mem a hb)]

theorem flatMap_ite_singleton {α β : Type} (p : α → Bool) (f : α → β) (as : List α) :
    (as.flatMap fun a => if p a then [f a] else []) = (as.filter p).map f := by
  induction as with
  | nil => rfl
  | cons a as ih => cases h : p a <;> simp [h, ih]

/-! ## Joined parts -/

theorem not_mem_intercalate {c : Char} {sep : List Char} {parts : List (List Char)}
    (hsep : c ∉ sep) (hparts : ∀ part ∈ parts, c ∉ part) : c ∉ sep.intercalate parts := by
  induction parts with
  | nil => exact List.not_mem_nil
  | cons part parts ih =>
      have hrest := ih fun p hp => hparts p (List.mem_cons_of_mem part hp)
      have hpart := hparts part List.mem_cons_self
      cases parts with
      | nil => simpa [List.intercalate] using hpart
      | cons next parts =>
          simp only [List.intercalate, List.intersperse_cons_cons, List.flatten_cons,
            List.mem_append, not_or] at hrest ⊢
          exact ⟨hpart, hsep, hrest⟩

/-- Parts that are not empty and do not hold the separator can be read back. -/
theorem intercalate_inj {α : Type} [DecidableEq α] {sep : α} {as bs : List (List α)}
    (has : ∀ a ∈ as, a ≠ [] ∧ sep ∉ a) (hbs : ∀ b ∈ bs, b ≠ [] ∧ sep ∉ b)
    (h : [sep].intercalate as = [sep].intercalate bs) : as = bs := by
  have hparts {parts : List (List α)} (hparts : ∀ part ∈ parts, part ≠ [] ∧ sep ∉ part) :
      (([sep].intercalate parts).splitOn sep).filter (!·.isEmpty) = parts := by
    by_cases hnil : parts = []
    · subst hnil
      rfl
    · rw [List.splitOn_intercalate sep (fun part hpart => (hparts part hpart).2) hnil,
        List.filter_eq_self]
      intro part hpart
      simpa using (hparts part hpart).1
  rw [← hparts has, ← hparts hbs, h]

/-- What stands before the first separator, and what stands behind it. -/
theorem append_cons_inj {α : Type} {sep : α} {as bs as' bs' : List α} (has : sep ∉ as)
    (hbs : sep ∉ bs) (h : as ++ sep :: as' = bs ++ sep :: bs') : as = bs ∧ as' = bs' := by
  induction as generalizing bs with
  | nil =>
      cases bs with
      | nil => exact ⟨rfl, List.tail_eq_of_cons_eq h⟩
      | cons b bs => exact absurd (List.head_eq_of_cons_eq h ▸ List.mem_cons_self) hbs
  | cons a as ih =>
      cases bs with
      | nil => exact absurd (List.head_eq_of_cons_eq h ▸ List.mem_cons_self) has
      | cons b bs =>
          rw [List.mem_cons, not_or] at has hbs
          obtain ⟨rfl, htail⟩ := List.cons.inj h
          obtain ⟨rfl, hrest⟩ := ih has.2 hbs.2 htail
          exact ⟨rfl, hrest⟩

theorem eq_of_map_fst_snd {α β : Type} {as bs : List (α × β)}
    (hfst : as.map (·.1) = bs.map (·.1)) (hsnd : as.map (·.2) = bs.map (·.2)) : as = bs := by
  rw [← List.zip_unzip as, ← List.zip_unzip bs, List.unzip_eq_map, List.unzip_eq_map]
  exact congrArg₂ List.zip hfst hsnd

/-! ## Lists that are related item by item -/

theorem forall₂_imp_of_mem {α β : Type} {R S : α → β → Prop} {as : List α} {bs : List β}
    (hRS : ∀ a ∈ as, ∀ b ∈ bs, R a b → S a b) (h : List.Forall₂ R as bs) :
    List.Forall₂ S as bs := by
  induction h with
  | nil => exact .nil
  | cons hab _ ih =>
      refine .cons (hRS _ List.mem_cons_self _ List.mem_cons_self hab) (ih fun a ha b hb => ?_)
      exact hRS a (List.mem_cons_of_mem _ ha) b (List.mem_cons_of_mem _ hb)

theorem forall₂_symm {α : Type} {R : α → α → Prop} {as bs : List α}
    (hR : ∀ a ∈ as, ∀ b ∈ bs, R a b → R b a) (h : List.Forall₂ R as bs) :
    List.Forall₂ R bs as :=
  .flip (forall₂_imp_of_mem hR h)

theorem forall₂_trans {α : Type} {R : α → α → Prop} {as bs cs : List α}
    (hR : ∀ a ∈ as, ∀ b c, R a b → R b c → R a c) (hab : List.Forall₂ R as bs)
    (hbc : List.Forall₂ R bs cs) : List.Forall₂ R as cs := by
  induction hab generalizing cs with
  | nil =>
      cases hbc
      exact .nil
  | cons hab _ ih =>
      cases hbc with
      | cons hb htail =>
          refine .cons (hR _ List.mem_cons_self _ _ hab hb) (ih (fun a ha => ?_) htail)
          exact hR a (List.mem_cons_of_mem _ ha)

/-! ## Values by name -/

theorem lookup_cons_ite {α β : Type} [BEq α] [LawfulBEq α] [DecidableEq α] (name key : α)
    (value : β) (entries : List (α × β)) :
    ((key, value) :: entries).lookup name
      = if name = key then some value else entries.lookup name := by
  by_cases h : name = key
  · rw [if_pos h, h, List.lookup_cons_self]
  · rw [if_neg h, List.lookup_cons, beq_eq_false_iff_ne.mpr h]

theorem mem_of_lookup {α β : Type} [BEq α] [LawfulBEq α] {entries : List (α × β)} {name : α}
    {value : β} (h : entries.lookup name = some value) : (name, value) ∈ entries := by
  obtain ⟨before, after, rfl, -⟩ := List.lookup_eq_some_iff.mp h
  exact List.mem_append_right before List.mem_cons_self

/-- An entry is found under its name when the names are distinct. -/
theorem lookup_of_mem {β : Type} {entries : List (String × β)}
    (hnodup : (entries.map (·.1)).Nodup) {name : String} {value : β}
    (h : (name, value) ∈ entries) : entries.lookup name = some value := by
  induction entries with
  | nil => cases h
  | cons entry entries ih =>
      rw [List.map_cons, List.nodup_cons] at hnodup
      obtain ⟨key, first⟩ := entry
      rw [lookup_cons_ite]
      rcases List.mem_cons.mp h with heq | hmem
      · cases heq
        rw [if_pos rfl]
      · have hne : name ≠ key := by
          rintro rfl
          exact hnodup.1 (List.mem_map.mpr ⟨_, hmem, rfl⟩)
        rw [if_neg hne, ih hnodup.2 hmem]

/-- The order of entries with distinct names makes no difference. -/
theorem lookup_perm {β : Type} {entries entries' : List (String × β)}
    (h : entries.Perm entries') (hnodup : (entries.map (·.1)).Nodup) (name : String) :
    entries.lookup name = entries'.lookup name := by
  have hnodup' : (entries'.map (·.1)).Nodup := (h.map (·.1)).nodup_iff.mp hnodup
  ext value
  constructor
  · intro hfound
    exact lookup_of_mem hnodup' (h.mem_iff.mp (mem_of_lookup hfound))
  · intro hfound
    exact lookup_of_mem hnodup (h.mem_iff.mpr (mem_of_lookup hfound))

/-! ## First occurrences -/

theorem eraseDups_eq_self {α : Type} [BEq α] [LawfulBEq α] {as : List α} (h : as.Nodup) :
    as.eraseDups = as := by
  induction as with
  | nil => rfl
  | cons a as ih =>
      obtain ⟨ha, has⟩ := List.nodup_cons.mp h
      have hother : as.filter (fun b => !b == a) = as := by
        rw [List.filter_eq_self]
        intro b hb
        have hne : b ≠ a := fun heq => ha (heq ▸ hb)
        simpa using hne
      rw [List.eraseDups_cons, hother, ih has]

/-- Behind a list that has it already, an entry is no first occurrence. -/
theorem eraseDups_append_cons {α : Type} [BEq α] [LawfulBEq α] {as : List α} {a : α} (h : a ∈ as)
    (bs : List α) : (as ++ a :: bs).eraseDups = (as ++ bs).eraseDups := by
  rw [List.eraseDups_append, List.eraseDups_append]
  simp [List.removeAll, h]

/-! ## Order by a key -/

section Keys

variable {α : Type} {key : α → Nat}

/-- A list in the order of a key is known by its entries of each key. -/
theorem eq_of_filter_key_eq {as bs : List α} (has : as.Pairwise fun a b => key a ≤ key b)
    (hbs : bs.Pairwise fun a b => key a ≤ key b)
    (h : ∀ n, as.filter (key · == n) = bs.filter (key · == n)) : as = bs := by
  induction as generalizing bs with
  | nil =>
      cases bs with
      | nil => rfl
      | cons b bs => simpa using h (key b)
  | cons a as ih =>
      cases bs with
      | nil => simpa using h (key a)
      | cons b bs =>
          obtain ⟨hfirst, hrest⟩ := List.pairwise_cons.mp has
          obtain ⟨hfirst', hrest'⟩ := List.pairwise_cons.mp hbs
          -- the heads are in both lists, so neither key is below the other
          have hmem : ∀ c, c ∈ a :: as ↔ c ∈ b :: bs := by
            intro c
            have hc := congrArg (c ∈ ·) (h (key c))
            simpa only [List.mem_filter, beq_self_eq_true, and_true, eq_iff_iff] using hc
          have ha : a ∈ b :: bs := (hmem a).mp List.mem_cons_self
          have hb : b ∈ a :: as := (hmem b).mpr List.mem_cons_self
          have hba : key b ≤ key a := by
            rcases List.mem_cons.mp ha with rfl | ha
            · exact Nat.le_refl _
            · exact hfirst' a ha
          have hab : key a ≤ key b := by
            rcases List.mem_cons.mp hb with rfl | hb
            · exact Nat.le_refl _
            · exact hfirst b hb
          have hkey : key a = key b := Nat.le_antisymm hab hba
          have hheads : a = b := by
            have hfilter := h (key a)
            rw [List.filter_cons_of_pos (by simp), List.filter_cons_of_pos (by simp [hkey])]
              at hfilter
            exact List.head_eq_of_cons_eq hfilter
          subst hheads
          refine congrArg (a :: ·) (ih hrest hrest' fun n => ?_)
          have hfilter := h n
          by_cases hn : key a = n
          · simpa [hn] using hfilter
          · simpa [hn] using hfilter

/-- Sorting by a key keeps the order of the entries of each key. -/
theorem filter_mergeSort_key (as : List α) (n : Nat) :
    (as.mergeSort fun a b => decide (key a ≤ key b)).filter (key · == n)
      = as.filter (key · == n) := by
  have hsame : (as.filter (key · == n)).Pairwise
      fun a b => decide (key a ≤ key b) = true := by
    refine List.pairwise_of_forall_mem_list fun a ha b hb => ?_
    have hka : key a = n := by simpa using (List.mem_filter.mp ha).2
    have hkb : key b = n := by simpa using (List.mem_filter.mp hb).2
    simp [hka, hkb]
  have hsub : (as.filter (key · == n)).Sublist
      (as.mergeSort fun a b => decide (key a ≤ key b)) := by
    refine List.sublist_mergeSort ?_ ?_ hsame List.filter_sublist
    · simpa using fun a b c => Nat.le_trans
    · simpa using fun a b => Nat.le_total (key a) (key b)
  have hfiltered := hsub.filter (key · == n)
  rw [List.filter_filter] at hfiltered
  simp only [Bool.and_self] at hfiltered
  have hperm := (List.mergeSort_perm as fun a b => decide (key a ≤ key b)).filter (key · == n)
  exact (hfiltered.eq_of_length hperm.length_eq.symm).symm

theorem pairwise_mergeSort_key (as : List α) :
    (as.mergeSort fun a b => decide (key a ≤ key b)).Pairwise fun a b => key a ≤ key b := by
  have hsorted : (as.mergeSort fun a b => decide (key a ≤ key b)).Pairwise
      fun a b => decide (key a ≤ key b) = true := by
    refine List.pairwise_mergeSort ?_ ?_ as
    · simpa using fun a b c => Nat.le_trans
    · simpa using fun a b => Nat.le_total (key a) (key b)
  simpa using hsorted

/-- Of the entries collected key after key, those of one key are the ones collected for it. -/
theorem filter_flatMap_key (as : List α) (bound n : Nat) :
    ((List.range bound).flatMap fun k => as.filter (key · == k)).filter (key · == n)
      = if n < bound then as.filter (key · == n) else [] := by
  induction bound with
  | zero => simp
  | succ bound ih =>
      rw [List.range_succ, List.flatMap_append, List.filter_append, ih, List.flatMap_singleton,
        List.filter_filter]
      by_cases hn : n = bound
      · subst hn
        simp
      · have hnone : as.filter (fun a => key a == n && key a == bound) = [] := by
          rw [List.filter_eq_nil_iff]
          simp only [Bool.and_eq_true, beq_iff_eq]
          omega
        rw [hnone, List.append_nil]
        by_cases hlt : n < bound
        · rw [if_pos hlt, if_pos (by omega)]
        · rw [if_neg hlt, if_neg (by omega)]

/-- Sorting by a key below a bound is collecting the entries of one key after the other. -/
theorem mergeSort_key_eq_flatMap {as : List α} {bound : Nat} (h : ∀ a ∈ as, key a < bound) :
    (as.mergeSort fun a b => decide (key a ≤ key b))
      = (List.range bound).flatMap fun n => as.filter (key · == n) := by
  have hkeys : ∀ {n a}, a ∈ as.filter (key · == n) → key a = n := by
    intro n a ha
    simpa using (List.mem_filter.mp ha).2
  refine eq_of_filter_key_eq (pairwise_mergeSort_key as) ?_ fun n => ?_
  · refine List.pairwise_flatMap.mpr ⟨fun n _ => ?_, ?_⟩
    · refine List.pairwise_of_forall_mem_list fun a ha b hb => ?_
      rw [hkeys ha, hkeys hb]
    · refine List.pairwise_lt_range.imp fun hlt a ha b hb => ?_
      rw [hkeys ha, hkeys hb]
      exact Nat.le_of_lt hlt
  · rw [filter_mergeSort_key, filter_flatMap_key]
    by_cases hn : n < bound
    · rw [if_pos hn]
    · rw [if_neg hn, List.filter_eq_nil_iff]
      intro a ha
      have hlt := h a ha
      simp only [beq_iff_eq]
      omega

end Keys

/-! ## Runs -/

section Run

variable {σ α : Type} {step : σ → α → σ} {allowed : σ → α → Prop}

/-- Every entry of a run is allowed in the state that it meets. -/
def SafeRun (step : σ → α → σ) (allowed : σ → α → Prop) (s : σ) (run : List α) : Prop :=
  ∀ before a after, run = before ++ a :: after → allowed (before.foldl step s) a

theorem safeRun_nil (s : σ) : SafeRun step allowed s [] := by
  intro before a after h
  simp at h

theorem safeRun_cons {s : σ} {a : α} {run : List α} :
    SafeRun step allowed s (a :: run) ↔ allowed s a ∧ SafeRun step allowed (step s a) run := by
  constructor
  · intro h
    refine ⟨h [] a run rfl, fun before b after hsplit => ?_⟩
    exact h (a :: before) b after (by rw [hsplit, List.cons_append])
  · rintro ⟨ha, hrun⟩ before b after hsplit
    cases before with
    | nil =>
        cases hsplit
        exact ha
    | cons c before =>
        cases hsplit
        exact hrun before b after rfl

theorem safeRun_append {s : σ} {as bs : List α} :
    SafeRun step allowed s (as ++ bs)
      ↔ SafeRun step allowed s as ∧ SafeRun step allowed (as.foldl step s) bs := by
  induction as generalizing s with
  | nil => simp [safeRun_nil]
  | cons a as ih =>
      rw [List.cons_append, safeRun_cons, safeRun_cons, ih, List.foldl_cons, and_assoc]

/-- A run of entries that are allowed everywhere is safe. -/
theorem safeRun_of_forall {run : List α} (s : σ) (h : ∀ a ∈ run, ∀ s, allowed s a) :
    SafeRun step allowed s run := by
  rintro before a after rfl
  exact h a (by simp) _

/-- A run of entries that change nothing ends where it begins. -/
theorem foldl_eq_self {run : List α} (s : σ) (h : ∀ a ∈ run, ∀ s, step s a = s) :
    run.foldl step s = s := by
  induction run with
  | nil => rfl
  | cons a run ih =>
      rw [List.foldl_cons, h a List.mem_cons_self]
      exact ih fun b hb => h b (List.mem_cons_of_mem a hb)

end Run

end SchemaEvolution
