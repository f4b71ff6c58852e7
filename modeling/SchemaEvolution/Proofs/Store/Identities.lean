import SchemaEvolution.Proofs.Store.Registration

set_option autoImplicit false

/-! # The identities that a store knows

The registry of a store gives each identity the first of its declarations that can be described,
and nothing before (`Store.known?_registerEach`). A store is coherent when its models are the
descriptors of their identities and the type name of each descriptor is taken. In a coherent store
what is known of an identity decides a registration: an identity with a model gets it again
(`Store.Coherent.register_again`), one whose descriptor was refused is refused again
(`Store.Coherent.register_refused`), and only one that is not known is described from the
declaration at hand (`Store.Coherent.register_unknown`).

`registrations_coherent` says what this makes of a store that is built by registering models. Its
models are the descriptors that were returned, in the order of their first return.
-/

namespace SchemaEvolution

open Template

/-! ## The registry -/

/-- The descriptor that a store has made for an identity. -/
def Store.known? (s : Store) (id : ModelId) : Option Descriptor :=
  s.registry.descriptors.lookup id

/-- The first of the declarations of an identity that can be described, as a descriptor. -/
def firstDescribed (steps : List (ModelId × Declaration)) (id : ModelId) : Option Descriptor :=
  steps.findSome? fun step =>
    if step.1 = id then (Descriptor.ofDeclaration step.2).toOption else none

theorem Registry.describe_of_known {r : Registry} {id : ModelId} {m : Descriptor}
    (h : r.descriptors.lookup id = some m) (d : Declaration) : r.describe id d = .ok (m, r) := by
  rw [describe, h]

theorem Registry.describe_of_unknown {r : Registry} {id : ModelId}
    (h : r.descriptors.lookup id = none) (d : Declaration) :
    r.describe id d
      = (Descriptor.ofDeclaration d).map fun m => (m, ⟨r.descriptors ++ [(id, m)]⟩) := by
  rw [describe, h]
  cases Descriptor.ofDeclaration d <;> rfl

namespace Store

variable {s : Store}

/-- A declaration that cannot be described is refused and leaves no trace. -/
theorem register_of_not_described {id : ModelId} {d : Declaration} {e : SchemaError}
    (h : s.registry.describe id d = .error e) : s.register id d = (.error e, s) := by
  rw [register, h]

section Described

variable {id : ModelId} {d : Declaration} {m : Descriptor} {registry : Registry}
  (h : s.registry.describe id d = .ok (m, registry))
include h

/-- What is described finds its type name taken or is a new model. -/
theorem register_of_described :
    (∃ r ∈ s.registered, r.model.typeName = m.typeName
        ∧ s.register id d
          = (if r.id = id then .ok m else .error (.duplicateModel m.typeName), { s with registry }))
      ∨ ((∀ r ∈ s.registered, r.model.typeName ≠ m.typeName)
        ∧ s.register id d
          = (.ok m, { s with registry }.add id m)) := by
  rcases s.register_cases id d with ⟨e, he, -⟩ | ⟨m', registry', hm, hcases⟩
  · rw [h] at he
    cases he
  · rw [h] at hm
    cases hm
    exact hcases

/-- Whether the store refuses a model or not, its registry keeps what it describes. -/
theorem registry_register : (s.register id d).2.registry = registry := by
  rcases register_of_described h with ⟨r, -, -, heq⟩ | ⟨-, heq⟩
  · rw [heq]
  · rw [heq]
    rfl

/-- The type name of what is described is taken from then on. -/
theorem typeName_mem_register : m.typeName ∈ (s.register id d).2.models.map (·.typeName) := by
  rw [mem_typeNames]
  rcases register_of_described h with ⟨r, hr, hname, heq⟩ | ⟨-, heq⟩
  · rw [heq]
    exact ⟨r, hr, hname⟩
  · rw [heq]
    exact ⟨⟨id, m⟩, List.mem_append_right _ List.mem_cons_self, rfl⟩

end Described

/-- A registration teaches the store an identity that it does not know, if the declaration can be
described, and nothing else. -/
theorem known?_register (s : Store) (id : ModelId) (d : Declaration) (other : ModelId) :
    (s.register id d).2.known? other
      = (s.known? other).or
          (if id = other then (Descriptor.ofDeclaration d).toOption else none) := by
  cases hknown : s.known? id with
  | some m =>
      rw [known?, registry_register (Registry.describe_of_known hknown d)]
      by_cases hother : id = other
      · subst hother
        rw [if_pos rfl, hknown, Option.some_or]
        exact hknown
      · rw [if_neg hother, Option.or_none]
        rfl
  | none =>
      have hdescribe := Registry.describe_of_unknown hknown d
      cases hd : Descriptor.ofDeclaration d with
      | error e =>
          rw [hd] at hdescribe
          rw [register_of_not_described hdescribe]
          simp [Except.toOption]
      | ok m =>
          rw [hd] at hdescribe
          rw [known?, registry_register hdescribe, List.lookup_append, known?]
          rw [lookup_cons_ite, List.lookup_nil]
          by_cases hother : id = other
          · rw [if_pos hother, if_pos hother.symm]
            rfl
          · rw [if_neg hother, if_neg (Ne.symm hother)]

/-- The descriptor of an identity comes from the first of its declarations that can be described. -/
theorem known?_registerEach (s : Store) (steps : List (ModelId × Declaration)) (id : ModelId) :
    (s.registerEach steps).known? id = (s.known? id).or (firstDescribed steps id) := by
  induction steps generalizing s with
  | nil => rw [firstDescribed, List.findSome?_nil, Option.or_none, registerEach, List.foldl_nil]
  | cons step steps ih =>
      show ((s.register step.1 step.2).2.registerEach steps).known? id = _
      rw [ih, known?_register, Option.or_assoc]
      congr 1
      rw [firstDescribed, firstDescribed, List.findSome?_cons]
      cases if step.1 = id then (Descriptor.ofDeclaration step.2).toOption else none <;> rfl

/-- What is known of an identity stays. -/
theorem known?_register_of_known {id : ModelId} {m : Descriptor} (h : s.known? id = some m)
    (other : ModelId) (d : Declaration) : (s.register other d).2.known? id = some m := by
  rw [known?_register, h, Option.some_or]

/-! ## Coherent stores -/

/-- The models of the store are the descriptors of their identities, and the type name of each
descriptor is taken. -/
structure Coherent (s : Store) : Prop extends s.Sound where
  recorded : ∀ r ∈ s.registered, s.known? r.id = some r.model
  taken : ∀ id m, s.known? id = some m → m.typeName ∈ s.models.map (·.typeName)

theorem coherent_new (namespaceName : String) (strict : Bool) :
    Coherent { namespaceName, strict } where
  toSound := sound_new (by simp) namespaceName strict
  recorded := by simp
  taken := by
    intro id m h
    cases h

/-- The models of a store stay, in their order. -/
theorem registered_prefix_register (s : Store) (id : ModelId) (d : Declaration) :
    s.registered <+: (s.register id d).2.registered := by
  rcases s.register_cases id d with ⟨e, -, h⟩ | ⟨m, registry, -, ⟨r, -, -, h⟩ | ⟨-, h⟩⟩
  · rw [h]
  · rw [h]
  · rw [h]
    exact List.prefix_append _ _

theorem registered_prefix_registerEach (s : Store) (steps : List (ModelId × Declaration)) :
    s.registered <+: (s.registerEach steps).registered := by
  induction steps generalizing s with
  | nil => exact List.prefix_refl _
  | cons step steps ih => exact (s.registered_prefix_register step.1 step.2).trans (ih _)

namespace Coherent

theorem recorded_register (hs : s.Coherent) (id : ModelId) (d : Declaration) :
    ∀ r ∈ (s.register id d).2.registered, (s.register id d).2.known? r.id = some r.model := by
  intro r hr
  by_cases hold : r ∈ s.registered
  · exact known?_register_of_known (hs.recorded r hold) id d
  · rcases s.register_cases id d with ⟨e, -, h⟩ | ⟨m, registry, hm, ⟨r', -, -, h⟩ | ⟨-, h⟩⟩
    · rw [h] at hr
      exact absurd hr hold
    · rw [h] at hr
      exact absurd hr hold
    · rw [h] at hr
      rw [List.mem_singleton.mp ((List.mem_append.mp hr).resolve_left hold), known?,
        registry_register hm]
      rcases Registry.describe_eq_ok hm with ⟨hknown, rfl⟩ | ⟨hunknown, -, rfl⟩
      · exact hknown
      · rw [List.lookup_append, hunknown, Option.none_or, lookup_cons_ite, if_pos rfl]

theorem taken_register (hs : s.Coherent) (id : ModelId) (d : Declaration) (other : ModelId)
    (m : Descriptor) (h : (s.register id d).2.known? other = some m) :
    m.typeName ∈ (s.register id d).2.models.map (·.typeName) := by
  rw [known?_register, Option.or_eq_some_iff] at h
  rcases h with hknown | ⟨hunknown, hnew⟩
  · obtain ⟨r, hr, hname⟩ := mem_typeNames.mp (hs.taken other m hknown)
    exact mem_typeNames.mpr ⟨r, (s.registered_prefix_register id d).subset hr, hname⟩
  · by_cases hother : id = other
    · subst hother
      have hdescribe := Registry.describe_of_unknown hunknown d
      rw [if_pos rfl] at hnew
      cases hd : Descriptor.ofDeclaration d with
      | error e =>
          rw [hd] at hnew
          cases hnew
      | ok described =>
          rw [hd] at hnew hdescribe
          cases hnew
          exact typeName_mem_register hdescribe
    · rw [if_neg hother] at hnew
      cases hnew

theorem register (hs : s.Coherent) (id : ModelId) (d : Declaration) :
    (s.register id d).2.Coherent where
  toSound := hs.toSound.register id d
  recorded := hs.recorded_register id d
  taken := hs.taken_register id d

theorem registerEach (hs : s.Coherent) (steps : List (ModelId × Declaration)) :
    (s.registerEach steps).Coherent := by
  induction steps generalizing s with
  | nil => exact hs
  | cons step steps ih => exact ih (hs.register step.1 step.2)

/-! ## What a registration returns -/

/-- An identity that has a model in the store gets it again, whatever is declared for it. -/
theorem register_again (hs : s.Coherent) {r : Registered} (hr : r ∈ s.registered)
    (d : Declaration) : s.register r.id d = (.ok r.model, s) := by
  have hdescribe := Registry.describe_of_known (hs.recorded r hr) d
  rcases register_of_described hdescribe with ⟨r', hr', hname, heq⟩ | ⟨hfree, -⟩
  · -- only one model has this type name
    have hsame : r' = r := by
      have hdistinct := hs.distinct
      rw [models, List.map_map] at hdistinct
      exact List.inj_on_of_nodup_map hdistinct hr' hr hname
    rw [heq, hsame, if_pos rfl]
  · exact absurd rfl (hfree r hr)

/-- An identity whose descriptor was refused is refused again, whatever is declared for it. -/
theorem register_refused (hs : s.Coherent) {id : ModelId} {m : Descriptor}
    (hknown : s.known? id = some m) (hnone : ∀ r ∈ s.registered, r.id ≠ id) (d : Declaration) :
    s.register id d = (.error (.duplicateModel m.typeName), s) := by
  have hdescribe := Registry.describe_of_known hknown d
  rcases register_of_described hdescribe with ⟨r, hr, -, heq⟩ | ⟨hfree, -⟩
  · rw [heq, if_neg (hnone r hr)]
  · obtain ⟨r, hr, hname⟩ := mem_typeNames.mp (hs.taken id m hknown)
    exact absurd hname (hfree r hr)

/-- An identity that is not known is described from the declaration at hand. -/
theorem register_unknown (hs : s.Coherent) {id : ModelId} (hunknown : s.known? id = none)
    (d : Declaration) :
    (s.register id d).1 = (Descriptor.ofDeclaration d).bind fun m =>
      if m.typeName ∈ s.models.map (·.typeName) then .error (.duplicateModel m.typeName)
      else .ok m := by
  have hdescribe := Registry.describe_of_unknown hunknown d
  cases hd : Descriptor.ofDeclaration d with
  | error e =>
      rw [hd] at hdescribe
      rw [register_of_not_described hdescribe]
      rfl
  | ok m =>
      rw [hd] at hdescribe
      show _ = if _ then _ else _
      rcases register_of_described hdescribe with ⟨r, hr, hname, heq⟩ | ⟨hfree, heq⟩
      · -- the model of this name has another identity, since this one is not known
        have hne : r.id ≠ id := by
          intro hid
          have hrecorded := hs.recorded r hr
          rw [hid, hunknown] at hrecorded
          cases hrecorded
        rw [heq, if_neg hne, if_pos (mem_typeNames.mpr ⟨r, hr, hname⟩)]
      · rw [heq, if_neg]
        rw [mem_typeNames]
        rintro ⟨r, hr, hname⟩
        exact hfree r hr hname

/-- A model that is returned is that of its identity in the store. -/
theorem exists_registered_of_ok (hs : s.Coherent) {id : ModelId} {d : Declaration} {m : Descriptor}
    (h : (s.register id d).1 = .ok m) :
    ∃ r ∈ (s.register id d).2.registered, r.id = id ∧ r.model = m := by
  cases hdescribe : s.registry.describe id d with
  | error e =>
      rw [register_of_not_described hdescribe] at h
      cases h
  | ok described =>
      obtain ⟨m', registry⟩ := described
      rcases register_of_described hdescribe with ⟨r, hr, -, heq⟩ | ⟨-, heq⟩
      · rw [heq] at h ⊢
        by_cases hid : r.id = id
        · have hknown := Registry.describe_of_known (hs.recorded r hr) d
          rw [hid, hdescribe, Except.ok.injEq, Prod.mk.injEq] at hknown
          rw [if_pos hid, Except.ok.injEq] at h
          exact ⟨r, hr, hid, hknown.1.symm.trans h⟩
        · rw [if_neg hid] at h
          cases h
      · rw [heq] at h ⊢
        cases h
        exact ⟨⟨id, m⟩, List.mem_append_right _ List.mem_cons_self, rfl, rfl⟩

end Coherent

/-- A registration that is refused leaves the models and their symbol tables as they are. -/
theorem registered_of_error {id : ModelId} {d : Declaration} {e : SchemaError}
    (h : (s.register id d).1 = .error e) :
    (s.register id d).2.registered = s.registered ∧ (s.register id d).2.source = s.source := by
  rcases s.register_cases id d with ⟨e', -, heq⟩ | ⟨m, registry, -, ⟨r, -, -, heq⟩ | ⟨-, heq⟩⟩
  · exact ⟨by rw [heq], by rw [heq]⟩
  · exact ⟨by rw [heq], by rw [heq]⟩
  · rw [heq] at h
    cases h

/-- What registrations return, in order. -/
def returned (s : Store) : List (ModelId × Declaration) → List Descriptor
  | [] => []
  | step :: steps =>
    (s.register step.1 step.2).1.toOption.toList ++ (s.register step.1 step.2).2.returned steps

/-- A model that is returned is in the store already or comes behind the others. -/
theorem models_register_of_ok {id : ModelId} {d : Declaration} {m : Descriptor}
    (hs : s.Coherent) (h : (s.register id d).1 = .ok m) :
    (m ∈ s.models ∧ (s.register id d).2.models = s.models)
      ∨ (s.register id d).2.models = s.models ++ [m] := by
  have hreturned := hs.exists_registered_of_ok h
  rcases s.register_cases id d with ⟨e, -, heq⟩ | ⟨m', registry, -, ⟨r, -, -, heq⟩ | ⟨-, heq⟩⟩
  · rw [heq] at h
    cases h
  · rw [heq] at hreturned ⊢
    obtain ⟨r', hr', -, hmodel⟩ := hreturned
    exact .inl ⟨List.mem_map.mpr ⟨r', hr', hmodel⟩, rfl⟩
  · rw [heq] at h ⊢
    cases h
    exact .inr (models_add _ id m)

/-- The models of a store are those it had and those that were returned, each where it first came. -/
theorem Coherent.models_registerEach (hs : s.Coherent) (steps : List (ModelId × Declaration)) :
    (s.registerEach steps).models = (s.models ++ s.returned steps).eraseDups := by
  induction steps generalizing s with
  | nil =>
      have hnodup : s.models.Nodup := hs.distinct.of_map _
      rw [returned, List.append_nil, eraseDups_eq_self hnodup]
      rfl
  | cons step steps ih =>
      show ((s.register step.1 step.2).2.registerEach steps).models = _
      rw [ih (hs.register step.1 step.2), returned]
      cases h : (s.register step.1 step.2).1 with
      | error e =>
          rw [models, (registered_of_error h).1]
          rfl
      | ok m =>
          show _ = (s.models ++ m :: (s.register step.1 step.2).2.returned steps).eraseDups
          rcases models_register_of_ok hs h with ⟨hmem, hmodels⟩ | hmodels
          · rw [hmodels, eraseDups_append_cons hmem]
          · rw [hmodels, List.append_assoc]
            rfl

end Store

/-- Registering models, one after the other, in a new store. The type names of the store are
pairwise different and its models are those that were returned, in the order of their first return.
It has one symbol table for each of its models, the one made of it, and no others. Whatever is
registered next under an identity, three things can be known of it. The identity has a model in the
store: this model is returned, made of the first declaration that could be described, and nothing
changes. It has a descriptor, which was refused: it is refused again. None of its declarations could
be described: the next one is described, and only a type name that is taken keeps the model out. A
registration that is refused leaves the models and their symbol tables as they are, and one whose
declaration cannot be described leaves no trace at all. -/
theorem registrations_coherent (namespaceName : String) (strict : Bool)
    (steps : List (ModelId × Declaration)) :
    let new : Store := { namespaceName, strict }
    let s := new.registerEach steps
    (s.models.map (·.typeName)).Nodup
      ∧ s.models = (new.returned steps).eraseDups
      ∧ s.source = s.models.map (fun m => (m.typeName, SymbolTable.ofModel m namespaceName))
      ∧ (∀ before id d after m, steps = before ++ (id, d) :: after →
          ((new.registerEach before).register id d).1 = .ok m →
          firstDescribed steps id = some m ∧ ∀ d', s.register id d' = (.ok m, s))
      ∧ (∀ id m, firstDescribed steps id = some m → ∀ d,
          s.register id d
            = (if id ∈ s.registered.map (·.id) then .ok m else .error (.duplicateModel m.typeName),
              s))
      ∧ (∀ id, firstDescribed steps id = none → ∀ d,
          (s.register id d).1 = (Descriptor.ofDeclaration d).bind fun m =>
            if m.typeName ∈ s.models.map (·.typeName) then .error (.duplicateModel m.typeName)
            else .ok m)
      ∧ ∀ id d e, (s.register id d).1 = .error e →
          (s.register id d).2.models = s.models ∧ (s.register id d).2.source = s.source
            ∧ (firstDescribed steps id = none → Descriptor.ofDeclaration d = .error e →
              (s.register id d).2 = s) := by
  intro new s
  have hnew : new.Coherent := Store.coherent_new namespaceName strict
  have hs : s.Coherent := hnew.registerEach steps
  have hname : s.namespaceName = namespaceName := (new.registerEach_binding steps).1
  have hknown (id : ModelId) : s.known? id = firstDescribed steps id :=
    new.known?_registerEach steps id
  refine ⟨hs.distinct, hnew.models_registerEach steps, ?_, ?_, ?_, ?_, ?_⟩
  · rw [hs.tables, hname]
  · intro before id d after m hsteps hok
    obtain ⟨r, hr, rfl, rfl⟩ := (hnew.registerEach before).exists_registered_of_ok hok
    have hlater : r ∈ s.registered := by
      have hs' : s = ((new.registerEach before).register r.id d).2.registerEach after := by
        show new.registerEach steps = _
        rw [hsteps, Store.registerEach, List.foldl_append, List.foldl_cons]
        rfl
      rw [hs']
      exact (Store.registered_prefix_registerEach _ after).subset hr
    rw [← hknown]
    exact ⟨hs.recorded r hlater, hs.register_again hlater⟩
  · intro id m hm d
    rw [← hknown] at hm
    split
    · next hmem =>
      obtain ⟨r, hr, rfl⟩ := List.mem_map.mp hmem
      rw [hs.recorded r hr, Option.some.injEq] at hm
      rw [← hm]
      exact hs.register_again hr d
    · next hmem =>
      exact hs.register_refused hm (fun r hr hid => hmem (List.mem_map.mpr ⟨r, hr, hid⟩)) d
  · intro id hnone d
    exact hs.register_unknown ((hknown id).trans hnone) d
  · intro id d e herror
    obtain ⟨hregistered, hsource⟩ := Store.registered_of_error herror
    refine ⟨?_, hsource, fun hnone hd => ?_⟩
    · rw [Store.models, hregistered, Store.models]
    · have hdescribe := Registry.describe_of_unknown ((hknown id).trans hnone) d
      rw [hd] at hdescribe
      rw [Store.register_of_not_described hdescribe]

/-- Three declarations: accounts without a name, accounts, and other accounts. The identities `0`
and `1` are declared one after the other. -/
def accountSteps : List (ModelId × Declaration) :=
  [(0, { accountDeclaration with typeName := "" }), (0, accountDeclaration),
    (1, { accountDeclaration with table := "impostors" })]

/-- A declaration that was refused is made good, a second identity with the type name stays refused,
and what is declared for a known identity counts for nothing. -/
theorem registrations_coherent_accounts :
    ∃ s, s = Store.registerEach { namespaceName := "shop" } accountSteps
      ∧ s.models.map (·.typeName) = ["Account"]
      ∧ s.register 0 orderDeclaration = (.ok accountModel, s)
      ∧ s.register 1 orderDeclaration = (.error (.duplicateModel "Account"), s)
      ∧ (s.register 2 { orderDeclaration with typeName := "" }).2 = s
      ∧ (s.register 2 orderDeclaration).1
        = (Descriptor.ofDeclaration orderDeclaration).bind fun m =>
          if m.typeName = "Account" then .error (.duplicateModel m.typeName) else .ok m := by
  obtain ⟨-, -, -, hagain, hknown, hunknown, herror⟩ :=
    registrations_coherent "shop" false accountSteps
  have hnames : (Store.registerEach { namespaceName := "shop" } accountSteps).models.map
      (·.typeName) = ["Account"] := by decide +kernel
  have hother : (1 : ModelId) ∉ (Store.registerEach { namespaceName := "shop" }
      accountSteps).registered.map (·.id) := by decide +kernel
  refine ⟨_, rfl, hnames, ?_, ?_, ?_, ?_⟩
  · exact (hagain [accountSteps[0]] 0 accountDeclaration _ accountModel rfl rfl).2 orderDeclaration
  · rw [hknown 1 { accountModel with table := "impostors" } rfl, if_neg hother]
    rfl
  · exact (herror 2 _ .unnamedModel rfl).2.2 rfl rfl
  · rw [hunknown 2 rfl, hnames]
    simp only [List.mem_singleton]

end SchemaEvolution
