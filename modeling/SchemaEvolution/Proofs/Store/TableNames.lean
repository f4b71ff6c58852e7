import SchemaEvolution.Migration.Memory
import SchemaEvolution.Migration.Run
import SchemaEvolution.Proofs.Relation.Normal
import SchemaEvolution.Proofs.Store.Identities
import SchemaEvolution.Proofs.Text.SnakeCase

set_option autoImplicit false

/-! # Tables of registered models

A registration compares type names and never looks at tables. So the tables of a store that is built
by registering are pairwise different exactly when every registration that adds a model happens to
bring a table of its own (`tables_distinct_iff`). Models without a declared table do, as long as
their type names differ in more than case and underscores.

`API` and `Api` do not: they have one snake case. A store accepts models of both, and
every run changes the one table back and forth (`tables_shared`).
-/

namespace SchemaEvolution

open Text

/-! ## Names with one snake case -/

namespace Naming

/-- ASCII names whose snake cases are equal up to case have equal letters. -/
theorem letters_eq_of_sameFold {a b : String} (ha : a.toList.all isAscii = true)
    (hb : b.toList.all isAscii = true) (h : sameFold (snakeCase a) (snakeCase b) = true) :
    letters a.toList = letters b.toList := by
  rw [sameFold_iff, lowercase_snakeCase ha, lowercase_snakeCase hb] at h
  have hsnake := String.ofList_injective h
  rw [← letters_snakeFrom none a.toList, hsnake, letters_snakeFrom]

end Naming

/-- A model that is described has its type name and the table from the declaration. -/
theorem Descriptor.table_of_ofDeclaration {d : Declaration} {m : Descriptor}
    (h : ofDeclaration d = .ok m) :
    m.typeName = d.typeName ∧ m.table = d.table.getD (Naming.snakeCase d.typeName) := by
  obtain ⟨-, -, rfl⟩ := ofDeclaration_eq_ok_iff.mp h
  exact ⟨rfl, rfl⟩

/-- What a described model is called does not depend on the declared table. -/
theorem Descriptor.typeName_ofDeclaration (d : Declaration) (table : Option String) :
    (ofDeclaration { d with table }).map (·.typeName) = (ofDeclaration d).map (·.typeName) := by
  have hname (d : Declaration) : (ofDeclaration d).map (·.typeName) =
      if d.typeName = "" then .error .unnamedModel
      else (firstFault? d.typeName [] d.fields).elim (.ok d.typeName) .error := by
    rw [ofDeclaration_eq]
    split_ifs
    · rfl
    · cases firstFault? d.typeName [] d.fields <;> rfl
  exact (hname _).trans (hname d).symm

theorem Registry.typeName_describe (r : Registry) (id : ModelId) (d : Declaration)
    (table : Option String) :
    (r.describe id { d with table }).map (·.1.typeName)
      = (r.describe id d).map (·.1.typeName) := by
  cases hknown : r.descriptors.lookup id with
  | some m => rw [describe_of_known hknown, describe_of_known hknown]
  | none =>
      rw [describe_of_unknown hknown, describe_of_unknown hknown]
      have h := Descriptor.typeName_ofDeclaration d table
      cases hd : Descriptor.ofDeclaration d <;>
        cases hd' : Descriptor.ofDeclaration { d with table } <;> rw [hd, hd'] at h
      · cases h
        rfl
      · cases h
      · cases h
      · exact h

namespace Store

/-- The tables of the models, in the order of their registration. -/
def tables (s : Store) : List String := s.models.map (·.table)

/-- What a descriptor is called decides whether it is registered. -/
theorem isOk_register_congr {s : Store} {id : ModelId} {d d' : Declaration}
    (h : (s.registry.describe id d).map (·.1.typeName)
      = (s.registry.describe id d').map (·.1.typeName)) :
    (s.register id d).1.isOk = (s.register id d').1.isOk := by
  rw [register, register]
  rcases hd : s.registry.describe id d with e | ⟨m, registry⟩ <;>
    rcases hd' : s.registry.describe id d' with e' | ⟨m', registry'⟩ <;> rw [hd, hd'] at h
  · rfl
  · cases h
  · cases h
  · have hname : m.typeName = m'.typeName := Except.ok.inj h
    dsimp only
    rw [hname]
    cases s.registered.find? (·.model.typeName == m'.typeName) with
    | none => rfl
    | some r =>
        dsimp only
        split_ifs <;> rfl

/-- The model that a registration adds, if it adds one, has a table that no model of the store has
in any case of letters. -/
def BringsNewTable (s : Store) (id : ModelId) (d : Declaration) : Prop :=
  ∀ m ∈ (s.register id d).2.models, m ∉ s.models →
    ∀ other ∈ s.models, sameFold other.table m.table = false

/-- One registration keeps tables apart exactly when it brings a new one. -/
theorem distinct_register (s : Store) (id : ModelId) (d : Declaration) :
    DistinctNames (s.register id d).2.tables ↔ DistinctNames s.tables ∧ s.BringsNewTable id d := by
  have hsame (h : (s.register id d).2.models = s.models) :
      DistinctNames (s.register id d).2.tables ↔
        DistinctNames s.tables ∧ s.BringsNewTable id d := by
    rw [tables, BringsNewTable, h, tables]
    exact (and_iff_left fun m hm hnot => absurd hm hnot).symm
  rcases s.register_cases id d with ⟨e, -, h⟩ | ⟨m, registry, -, ⟨r, -, -, h⟩ | ⟨hfree, h⟩⟩
  · exact hsame (by rw [h])
  · exact hsame (by rw [h]; rfl)
  · have hmodels : (s.register id d).2.models = s.models ++ [m] := by
      rw [h]
      exact models_add _ id m
    have hnot : m ∉ s.models := by
      intro hm
      obtain ⟨r, hr, rfl⟩ := List.mem_map.mp hm
      exact hfree r hr rfl
    rw [tables, BringsNewTable, hmodels, tables, DistinctNames, DistinctNames, List.map_append,
      List.map_singleton, List.pairwise_append, and_iff_right (List.pairwise_singleton _ _)]
    refine and_congr_right fun _ => ⟨?_, ?_⟩
    · intro h new hnew hnotold other hother
      rw [List.mem_singleton.mp ((List.mem_append.mp hnew).resolve_left hnotold)]
      exact h _ (List.mem_map_of_mem hother) _ List.mem_cons_self
    · intro h table htable table' htable'
      obtain ⟨other, hother, rfl⟩ := List.mem_map.mp htable
      rw [List.mem_singleton.mp htable']
      exact h m (List.mem_append_right _ List.mem_cons_self) hnot other hother

/-- Registrations keep tables apart exactly when each of them brings a new one. -/
theorem distinct_registerEach (s : Store) (steps : List (ModelId × Declaration)) :
    DistinctNames (s.registerEach steps).tables ↔
      DistinctNames s.tables ∧ ∀ before step later, steps = before ++ step :: later →
        (s.registerEach before).BringsNewTable step.1 step.2 := by
  induction steps generalizing s with
  | nil =>
      refine (and_iff_left ?_).symm
      intro before step later h
      exact absurd h.symm (List.append_ne_nil_of_right_ne_nil before (List.cons_ne_nil step later))
  | cons step steps ih =>
      show DistinctNames ((s.register step.1 step.2).2.registerEach steps).tables ↔ _
      rw [ih, distinct_register, and_assoc]
      refine and_congr_right fun _ => ⟨?_, ?_⟩
      · rintro ⟨hfirst, hrest⟩ (_ | ⟨first, before⟩) other later h
        · cases h
          exact hfirst
        · cases h
          exact hrest before other later rfl
      · intro h
        exact ⟨h [] step steps rfl, fun before other later hsplit =>
          h (step :: before) other later (hsplit ▸ rfl)⟩

/-- Derived tables are different when the type names differ in more than case and underscores. -/
theorem distinct_of_letters {models : List Descriptor}
    (hderived : ∀ m ∈ models, m.table = Naming.snakeCase m.typeName
      ∧ m.typeName.toList.all isAscii = true)
    (hletters : (models.map fun m => Naming.letters m.typeName.toList).Nodup) :
    DistinctNames (models.map (·.table)) := by
  rw [DistinctNames, List.pairwise_map]
  refine (List.pairwise_map.mp hletters).imp_of_mem fun {m m'} hm hm' hne => ?_
  obtain ⟨htable, hascii⟩ := hderived m hm
  obtain ⟨htable', hascii'⟩ := hderived m' hm'
  rw [htable, htable', Bool.eq_false_iff]
  exact fun hsame => hne (Naming.letters_eq_of_sameFold hascii hascii' hsame)

/-- **The tables of registered models.** They are pairwise different, ignoring case, exactly when
every registration that adds a model brings a table of its own. None is refused for the table that
it declares. A table is the declared one or the snake case of the type name; without declared
tables, type names that differ in more than case and underscores are enough. -/
theorem tables_distinct_iff (registry : Registry)
    (hregistry : ∀ entry ∈ registry.descriptors, entry.2.IsDescribed) (namespaceName : String)
    (strict : Bool) (steps : List (ModelId × Declaration)) :
    (DistinctNames (registerEach { namespaceName, strict, registry } steps).tables ↔
        ∀ before step later, steps = before ++ step :: later →
          (registerEach { namespaceName, strict, registry } before).BringsNewTable step.1 step.2)
      ∧ (∀ (s : Store) (id : ModelId) (d : Declaration) (table : Option String),
          (s.register id { d with table }).1.isOk = (s.register id d).1.isOk)
      ∧ (∀ m ∈ (registerEach { namespaceName, strict, registry } steps).models,
          ∃ d, Descriptor.ofDeclaration d = .ok m ∧ m.typeName = d.typeName
            ∧ m.table = d.table.getD (Naming.snakeCase d.typeName))
      ∧ ((∀ m ∈ (registerEach { namespaceName, strict, registry } steps).models,
            m.table = Naming.snakeCase m.typeName ∧ m.typeName.toList.all isAscii = true) →
          ((registerEach { namespaceName, strict, registry } steps).models.map fun m =>
            Naming.letters m.typeName.toList).Nodup →
          DistinctNames (registerEach { namespaceName, strict, registry } steps).tables) := by
  refine ⟨?_, fun s id d table => ?_, fun m hm => ?_, distinct_of_letters⟩
  · rw [distinct_registerEach]
    exact and_iff_right List.Pairwise.nil
  · exact isOk_register_congr (s.registry.typeName_describe id d table)
  · have hsound := (sound_new hregistry namespaceName strict).registerEach steps
    obtain ⟨d, hd⟩ := hsound.models m hm
    exact ⟨d, hd, Descriptor.table_of_ofDeclaration hd⟩

/-- A declaration of accounts, and one of their owners. -/
def ownedAccounts : List (ModelId × Declaration) :=
  [(0, accountDeclaration), (1, { accountDeclaration with typeName := "AccountOwner" })]

theorem tables_distinct_iff_accounts :
    (registerEach { namespaceName := "shop", registered := [] } ownedAccounts).tables
        = ["account", "account_owner"]
      ∧ DistinctNames
          (registerEach { namespaceName := "shop", registered := [] } ownedAccounts).tables
      ∧ (registerEach { namespaceName := "shop", registered := [] }
          [(0, accountDeclaration)]).BringsNewTable 1
            { accountDeclaration with typeName := "AccountOwner" } := by
  obtain ⟨hiff, -, -, hletters⟩ :=
    tables_distinct_iff {} (by simp) "shop" false ownedAccounts
  have hdistinct := hletters (by decide +kernel) (by decide +kernel)
  exact ⟨by decide +kernel, hdistinct, hiff.mp hdistinct [(0, accountDeclaration)] _ [] rfl⟩

/-- A declaration of interfaces by their ports. -/
def apiDeclaration (typeName : String) (indexes : List String) : Declaration where
  typeName := typeName
  parts := [.field { name := "Port", element := { tag := "i64", kind := .int64 }, indexes }]

/-- Interfaces under two spellings of one name. Only one of them has an index. -/
def apiDeclarations : List (ModelId × Declaration) :=
  [(0, apiDeclaration "API" []), (1, apiDeclaration "Api" ["_port"])]

/-- The store with both. -/
def apiStore : Store :=
  registerEach { namespaceName := "shop", registered := [] } apiDeclarations

/-- Both spellings are accepted with one table, and a run over the database that an earlier run of
the same store has left executes statements for it again. -/
theorem tables_shared :
    apiStore.models.map (fun m => (m.typeName, m.table))
        = [("API", "api"), ("Api", "api")]
      ∧ ¬ DistinctNames apiStore.tables
      ∧ ((Migrator.run { store := apiStore } Memory.backend).run
          ((Migrator.run { store := apiStore } Memory.backend).run {}).2).1
        = .ok {
          namespaceName := "shop"
          dryRun := false
          tables := [
            ⟨"api", .altered, ["DROP INDEX shop.api_port"]⟩,
            ⟨"api", .altered, ["DROP INDEX IF EXISTS shop.api_port",
              "CREATE INDEX api_port ON shop.api(port)"]⟩] } := by
  refine ⟨by decide +kernel, by decide +kernel, by decide +kernel⟩

end Store

end SchemaEvolution
