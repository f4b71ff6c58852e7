import SchemaEvolution.Json.Printer
import SchemaEvolution.Json.Reader
import Mathlib.Data.List.TakeWhile
import Mathlib.Tactic

set_option autoImplicit false

/-! # Reading what was written

A text spells a document when it consists of the tokens of the document, in order, and of blanks
(`Spaced`); the compact text has no blanks (`spaced_write`), the indented one has some
(`spaced_layout`). `parse` reads any text that spells a document without numbers as that document
(`parse_spaced`).

Each reader is stated with the tokens that follow what it reads. The fuel of `value` is counted in
characters: two units for each character of the compact text are enough for a document and all the
readers that its reading calls, as blanks cost nothing.
-/

namespace SchemaEvolution.Json

/-! ## Strings -/

theorem hexDigit?_digitChar : ∀ n < 16, hexDigit? (Nat.digitChar n) = some n := by
  decide

/-- A control character is written by its code and read back from it. -/
theorem hexUnit?_hexEscape {c : Char} (h : c < ' ') :
    hexUnit? '0' '0' (Nat.digitChar (c.toNat / 16)) (Nat.digitChar (c.toNat % 16))
      = some (.char c) := by
  have hlt : c.toNat < 32 := h
  have hcode : ((0 * 16 + 0) * 16 + c.toNat / 16) * 16 + c.toNat % 16 = c.toNat := by omega
  have hhalf : ¬ (0xD800 ≤ c.toNat ∧ c.toNat ≤ 0xDFFF) := by omega
  have hzero : hexDigit? '0' = some 0 := by decide
  have hhigh := hexDigit?_digitChar (c.toNat / 16) (by omega)
  have hlow := hexDigit?_digitChar (c.toNat % 16) (by omega)
  simp only [hexUnit?, hzero, hhigh, hlow, Option.bind_eq_bind, Option.bind_some, hcode,
    Bool.and_eq_true, decide_eq_true_eq, if_neg hhalf, Char.ofNat_toNat]
  rfl

theorem stringUnits_escapeChar (c : Char) (cs : List Char) :
    stringUnits (escapeChar c ++ cs) = (stringUnits cs).map (consUnit (.char c)) := by
  unfold escapeChar
  split
  -- the seven characters with an escape of one letter
  iterate 7 · cases h : stringUnits cs <;> simp [stringUnits, escaped?, h]
  · next hquote hslash _ _ _ _ _ =>
    split
    · next hcontrol =>
      show stringUnits ('\\' :: 'u' :: '0' :: '0' :: _ :: _ :: cs) = _
      rw [stringUnits, hexUnit?_hexEscape hcontrol]
      cases h : stringUnits cs <;> rfl
    · next hcontrol =>
      rw [List.singleton_append, stringUnits]
      · rw [if_neg hcontrol]
        cases h : stringUnits cs <;> rfl
      · exact hquote
      · exact fun _ _ _ _ _ h _ => hslash h
      · exact fun _ _ h _ => hslash h

theorem stringUnits_escaped (cs rest : List Char) :
    stringUnits (cs.flatMap escapeChar ++ '"' :: rest) = some (cs.map .char, rest) := by
  induction cs with
  | nil => rfl
  | cons c cs ih =>
      rw [List.flatMap_cons, List.append_assoc, stringUnits_escapeChar, ih]
      rfl

theorem joinUnits_map_char (cs : List Char) : joinUnits (cs.map .char) = some cs := by
  induction cs with
  | nil => rfl
  | cons c cs ih => rw [List.map_cons, joinUnits, ih]; rfl

/-- A string literal is read back, up to its closing quote. -/
theorem string?_quote (s : String) (rest : List Char) :
    string? (s.toList.flatMap escapeChar ++ '"' :: rest) = some (some s, rest) := by
  rw [string?, stringUnits_escaped]
  show some ((joinUnits (s.toList.map .char)).map String.ofList, rest) = _
  rw [joinUnits_map_char, Option.map_some, String.ofList_toList]

/-! ## Documents -/

mutual

/-- A document without numbers and without unpaired halves. -/
def IsPlain : Json → Prop
  | .null | .bool _ | .string _ => True
  | .array items => ArePlain items
  | .object members => ArePlainMembers members
  | .number _ | .unpaired => False

/-- Plain documents. -/
def ArePlain : List Json → Prop
  | [] => True
  | j :: js => IsPlain j ∧ ArePlain js

/-- Members that hold plain documents. -/
def ArePlainMembers : List (String × Json) → Prop
  | [] => True
  | (_, j) :: js => IsPlain j ∧ ArePlainMembers js

end

theorem arePlain_map {α : Type} {write : α → Json} (h : ∀ a, IsPlain (write a))
    (items : List α) : ArePlain (items.map write) := by
  induction items with
  | nil => trivial
  | cons a as ih => exact ⟨h a, ih⟩

theorem arePlainMembers_iff {members : List (String × Json)} :
    ArePlainMembers members ↔ ∀ m ∈ members, IsPlain m.2 := by
  induction members with
  | nil => simp [ArePlainMembers]
  | cons m ms ih => simp [ArePlainMembers, ih]

/-! ## Tokens -/

mutual

/-- The tokens of a document. -/
def tokens : Json → List (List Char)
  | .array items => ['['] :: itemTokens items ++ [[']']]
  | .object members => ['\x7b'] :: memberTokens members ++ [['\x7d']]
  | j => [write j]

/-- The tokens of items separated by commas. -/
def itemTokens : List Json → List (List Char)
  | [] => []
  | [j] => tokens j
  | j :: js => tokens j ++ [','] :: itemTokens js

/-- The tokens of members separated by commas. -/
def memberTokens : List (String × Json) → List (List Char)
  | [] => []
  | [(key, j)] => quote key :: [':'] :: tokens j
  | (key, j) :: js => quote key :: [':'] :: tokens j ++ [','] :: memberTokens js

end

/-- A text of tokens with blanks before, between and after them. -/
inductive Spaced : List (List Char) → List Char → Prop
  | nil {blanks : List Char} (hblanks : ∀ c ∈ blanks, isBlank c = true) : Spaced [] blanks
  | cons {blanks token cs : List Char} {tokens : List (List Char)}
    (hblanks : ∀ c ∈ blanks, isBlank c = true) (hcs : Spaced tokens cs) :
    Spaced (token :: tokens) (blanks ++ (token ++ cs))

theorem itemTokens_cons (j k : Json) (ks : List Json) :
    itemTokens (j :: k :: ks) = tokens j ++ [','] :: itemTokens (k :: ks) := by
  rw [itemTokens]
  exact nofun

theorem memberTokens_cons (key : String) (j : Json) (k : String × Json)
    (ks : List (String × Json)) :
    memberTokens ((key, j) :: k :: ks)
      = quote key :: [':'] :: tokens j ++ [','] :: memberTokens (k :: ks) := by
  rw [memberTokens]
  exact nofun

theorem writeItems_cons (j k : Json) (ks : List Json) :
    writeItems (j :: k :: ks) = write j ++ ',' :: writeItems (k :: ks) := by
  rw [writeItems]
  exact nofun

theorem writeMembers_cons (key : String) (j : Json) (k : String × Json)
    (ks : List (String × Json)) :
    writeMembers ((key, j) :: k :: ks)
      = quote key ++ ':' :: write j ++ ',' :: writeMembers (k :: ks) := by
  rw [writeMembers]
  exact nofun

mutual

/-- The compact text consists of the tokens. -/
theorem flatten_tokens : ∀ j : Json, (tokens j).flatten = write j
  | .null | .bool _ | .number _ | .string _ | .unpaired => by simp [tokens]
  | .array items => by simp [tokens, write, flatten_itemTokens items]
  | .object members => by simp [tokens, write, flatten_memberTokens members]

theorem flatten_itemTokens : ∀ js : List Json, (itemTokens js).flatten = writeItems js
  | [] => rfl
  | [j] => by simp only [itemTokens, writeItems, flatten_tokens j]
  | j :: k :: ks => by
      simp only [itemTokens_cons, writeItems_cons, List.flatten_append, List.flatten_cons,
        flatten_tokens j, flatten_itemTokens (k :: ks), List.singleton_append]

theorem flatten_memberTokens :
    ∀ js : List (String × Json), (memberTokens js).flatten = writeMembers js
  | [] => rfl
  | [(key, j)] => by
      simp only [memberTokens, writeMembers, List.flatten_cons, flatten_tokens j,
        List.singleton_append]
  | (key, j) :: k :: ks => by
      simp only [memberTokens_cons, writeMembers_cons, List.flatten_append, List.flatten_cons,
        List.cons_append, flatten_tokens j, flatten_memberTokens (k :: ks), List.append_assoc,
        List.nil_append]

end

/-! ## Texts of tokens -/

section Spaced

variable {ts : List (List Char)} {cs : List Char}

theorem Spaced.blanks {blanks : List Char} (hblanks : ∀ c ∈ blanks, isBlank c = true)
    (h : Spaced ts cs) : Spaced ts (blanks ++ cs) := by
  cases h with
  | nil hcs =>
      refine .nil fun c hc => ?_
      rcases List.mem_append.mp hc with hc | hc
      · exact hblanks c hc
      · exact hcs c hc
  | @cons blanks' token cs ts hblanks' hcs =>
      rw [← List.append_assoc]
      refine .cons (fun c hc => ?_) hcs
      rcases List.mem_append.mp hc with hc | hc
      · exact hblanks c hc
      · exact hblanks' c hc

theorem Spaced.token (token : List Char) (h : Spaced ts cs) :
    Spaced (token :: ts) (token ++ cs) :=
  .cons (List.forall_mem_nil _) h

/-- Blanks may follow as well. -/
theorem Spaced.append_blanks {blanks : List Char} (hblanks : ∀ c ∈ blanks, isBlank c = true)
    (h : Spaced ts cs) : Spaced ts (cs ++ blanks) := by
  induction h with
  | nil hcs =>
      refine .nil fun c hc => ?_
      rcases List.mem_append.mp hc with hc | hc
      · exact hcs c hc
      · exact hblanks c hc
  | cons hblanks' hcs ih =>
      rw [List.append_assoc, List.append_assoc]
      exact .cons hblanks' ih

theorem spaced_flatten (ts : List (List Char)) : Spaced ts ts.flatten := by
  induction ts with
  | nil => exact .nil (by simp)
  | cons token ts ih => exact ih.token token

/-- The compact text of a document spells it. -/
theorem spaced_write (j : Json) : Spaced (tokens j) (write j) := by
  have hflat := spaced_flatten (tokens j)
  rwa [flatten_tokens] at hflat

theorem isBlank_of_mem_newLine (level : Nat) : ∀ c ∈ newLine level, isBlank c = true := by
  intro c hc
  rw [newLine, List.mem_cons] at hc
  rcases hc with rfl | hc
  · decide
  · rw [List.eq_of_mem_replicate hc]
    decide

theorem Spaced.length_flatten_le (h : Spaced ts cs) : ts.flatten.length ≤ cs.length := by
  induction h with
  | nil => simp
  | cons _ _ ih =>
      simp only [List.flatten_cons, List.length_append]
      omega

theorem skipBlanks_append {blanks : List Char} (hblanks : ∀ c ∈ blanks, isBlank c = true)
    (cs : List Char) : skipBlanks (blanks ++ cs) = skipBlanks cs :=
  List.dropWhile_append_of_pos hblanks

theorem skipBlanks_cons {c : Char} (cs : List Char) (h : isBlank c = false) :
    skipBlanks (c :: cs) = c :: cs := by
  rw [skipBlanks, List.dropWhile_cons, h]
  rfl

theorem Spaced.skipBlanks_eq_nil (h : Spaced [] cs) : skipBlanks cs = [] := by
  cases h with
  | nil hblanks => rwa [skipBlanks, List.dropWhile_eq_nil_iff]

/-- Behind blanks stands the first token. -/
theorem Spaced.skip (c : Char) (token : List Char) (h : Spaced ((c :: token) :: ts) cs)
    (hc : isBlank c = false) :
    ∃ rest, skipBlanks cs = c :: (token ++ rest) ∧ Spaced ts rest := by
  cases h with
  | @cons blanks _ rest _ hblanks hrest =>
      refine ⟨rest, ?_, hrest⟩
      rw [skipBlanks_append hblanks, List.cons_append, skipBlanks_cons _ hc]

/-- A token of one character. -/
theorem Spaced.skip_symbol (c : Char) (h : Spaced ([c] :: ts) cs) (hc : isBlank c = false) :
    ∃ rest, skipBlanks cs = c :: rest ∧ Spaced ts rest :=
  h.skip c [] hc

theorem Spaced.skipBlanks {c : Char} {token : List Char} (h : Spaced ((c :: token) :: ts) cs)
    (hc : isBlank c = false) : Spaced ((c :: token) :: ts) (skipBlanks cs) := by
  obtain ⟨rest, hskip, hrest⟩ := h.skip c token hc
  rw [hskip]
  exact hrest.token (c :: token)

end Spaced

theorem layoutItems_cons (level : Nat) (j k : Json) (ks : List Json) :
    layoutItems level (j :: k :: ks)
      = newLine level ++ layout level j ++ ',' :: layoutItems level (k :: ks) := by
  rw [layoutItems]
  exact nofun

theorem layoutMembers_cons (level : Nat) (key : String) (j : Json) (k : String × Json)
    (ks : List (String × Json)) :
    layoutMembers level ((key, j) :: k :: ks)
      = newLine level ++ quote key ++ ':' :: ' ' :: layout level j
        ++ ',' :: layoutMembers level (k :: ks) := by
  rw [layoutMembers]
  exact nofun

theorem spaced_layoutMember (level : Nat) (key : String) {ts : List (List Char)} {cs : List Char}
    (h : Spaced ts cs) :
    Spaced (quote key :: [':'] :: ts) (newLine level ++ (quote key ++ (':' :: ' ' :: cs))) := by
  have hvalue : Spaced ts ([' '] ++ cs) := h.blanks (List.forall_mem_singleton.mpr rfl)
  exact ((hvalue.token [':']).token (quote key)).blanks (isBlank_of_mem_newLine level)

mutual

/-- The indented text of a document spells it. -/
theorem spaced_layout : ∀ (j : Json) (level : Nat) {ts : List (List Char)} {cs : List Char},
    Spaced ts cs → Spaced (tokens j ++ ts) (layout level j ++ cs)
  | .null, _, _, _, h => h.token "null".toList
  | .bool b, _, _, _, h => h.token (write (.bool b))
  | .number n, _, _, _, h => h.token n.write
  | .string s, _, _, _, h => h.token (quote s)
  | .unpaired, _, _, _, h => h.token "null".toList
  | .array [], _, _, _, h => (h.token [']']).token ['[']
  | .array (j :: js), level, ts, cs, h => by
      have hclose := (h.token [']']).blanks (isBlank_of_mem_newLine level)
      have hitems := spaced_layoutItems (j :: js) (level + 1) hclose
      simpa [tokens, layout] using hitems.token ['[']
  | .object [], _, _, _, h => (h.token ['\x7d']).token ['\x7b']
  | .object (m :: ms), level, ts, cs, h => by
      have hclose := (h.token ['\x7d']).blanks (isBlank_of_mem_newLine level)
      have hmembers := spaced_layoutMembers (m :: ms) (level + 1) hclose
      simpa [tokens, layout] using hmembers.token ['\x7b']

theorem spaced_layoutItems : ∀ (js : List Json) (level : Nat) {ts : List (List Char)}
    {cs : List Char}, Spaced ts cs → Spaced (itemTokens js ++ ts) (layoutItems level js ++ cs)
  | [], _, _, _, h => h
  | [j], level, ts, cs, h => by
      have hitem := (spaced_layout j level h).blanks (isBlank_of_mem_newLine level)
      simpa [itemTokens, layoutItems] using hitem
  | j :: k :: ks, level, ts, cs, h => by
      have hothers := (spaced_layoutItems (k :: ks) level h).token [',']
      have hitem := (spaced_layout j level hothers).blanks (isBlank_of_mem_newLine level)
      simpa [itemTokens_cons, layoutItems_cons] using hitem

theorem spaced_layoutMembers : ∀ (ms : List (String × Json)) (level : Nat)
    {ts : List (List Char)} {cs : List Char}, Spaced ts cs →
    Spaced (memberTokens ms ++ ts) (layoutMembers level ms ++ cs)
  | [], _, _, _, h => h
  | [(key, j)], level, ts, cs, h => by
      have hmember := spaced_layoutMember level key (spaced_layout j level h)
      simpa [memberTokens, layoutMembers] using hmember
  | (key, j) :: m :: ms, level, ts, cs, h => by
      have hothers := (spaced_layoutMembers (m :: ms) level h).token [',']
      have hmember := spaced_layoutMember level key (spaced_layout j level hothers)
      simpa [memberTokens_cons, layoutMembers_cons] using hmember

end

theorem spaced_pretty (j : Json) : Spaced (tokens j) j.pretty.toList := by
  have htext := spaced_layout j 0 (spaced_flatten [])
  rwa [List.append_nil, List.flatten_nil, List.append_nil, ← String.toList_ofList (l := layout 0 j)]
    at htext

/-- The first token of a plain document begins with a character that is neither blank nor a closing
bracket. -/
theorem tokens_head {j : Json} (h : IsPlain j) :
    ∃ c token ts, tokens j = (c :: token) :: ts ∧ isBlank c = false ∧ c ≠ ']' := by
  cases j with
  | null => exact ⟨'n', _, _, rfl, by decide, by decide⟩
  | bool b =>
      cases b with
      | false => exact ⟨'f', _, _, rfl, by decide, by decide⟩
      | true => exact ⟨'t', _, _, rfl, by decide, by decide⟩
  | number n => exact h.elim
  | string s => exact ⟨'"', _, _, rfl, by decide, by decide⟩
  | unpaired => exact h.elim
  | array items => exact ⟨'[', _, _, by rw [tokens]; rfl, by decide, by decide⟩
  | object members => exact ⟨'\x7b', _, _, by rw [tokens]; rfl, by decide, by decide⟩

theorem itemTokens_head {j : Json} (h : IsPlain j) (js : List Json) :
    ∃ c token ts, itemTokens (j :: js) = (c :: token) :: ts ∧ isBlank c = false ∧ c ≠ ']' := by
  obtain ⟨c, token, ts, hhead, hc⟩ := tokens_head h
  cases js with
  | nil => exact ⟨c, token, ts, by rw [itemTokens, hhead], hc⟩
  | cons k ks => exact ⟨c, token, _, by rw [itemTokens_cons, hhead, List.cons_append], hc⟩

theorem memberTokens_head (key : String) (j : Json) (js : List (String × Json)) :
    ∃ ts, memberTokens ((key, j) :: js) = quote key :: ts := by
  cases js with
  | nil => exact ⟨_, by rw [memberTokens]⟩
  | cons k ks => exact ⟨_, by rw [memberTokens_cons, List.cons_append]⟩

/-! ## Reading -/

theorem ofMembers_some (members : List (String × Json)) :
    ofMembers (members.map fun m => (some m.1, m.2)) = .object members := by
  have hmap : (members.map fun m => (some m.1, m.2)).mapM
      (fun m : Option String × Json => m.1.map fun key => (key, m.2)) = some members := by
    induction members with
    | nil => rfl
    | cons m ms ih => simp [ih]
  rw [ofMembers, hmap]

/-- Reading the members of an object reads the key and the value of the first one, and then looks
at what follows. -/
theorem members_quote (fuel : Nat) {key : String} {ts : List (List Char)} {cs : List Char}
    (h : Spaced (quote key :: [':'] :: ts) cs) :
    ∃ rest, Spaced ts rest ∧ members (fuel + 1) cs =
      (value fuel rest).bind fun p =>
        match skipBlanks p.2 with
        | '\x7d' :: rest => some ([(some key, p.1)], rest)
        | ',' :: rest => (members fuel rest).map fun (ms, rest) => ((some key, p.1) :: ms, rest)
        | _ => none := by
  obtain ⟨afterKey, hkey, hcolon⟩ :=
    Spaced.skip '"' (key.toList.flatMap escapeChar ++ ['"']) h (by decide)
  obtain ⟨rest, hskip, hrest⟩ := Spaced.skip_symbol ':' hcolon (by decide)
  refine ⟨rest, hrest, ?_⟩
  rw [members, hkey]
  show (string? _ >>= _) = _
  rw [List.append_assoc, List.singleton_append, string?_quote]
  simp only [Option.bind_eq_bind, Option.bind_some]
  rw [hskip]
  rfl

/-! What the readers do once they see the next characters. -/

section Step

variable {fuel : Nat} {cs inner rest tail : List Char} {c : Char} {j : Json}

theorem value_bracket (hopen : skipBlanks cs = '[' :: inner) :
    value (fuel + 1) cs =
      match skipBlanks inner with
      | ']' :: rest => some (.array [], rest)
      | rest => (elements fuel rest).map fun (items, rest) => (.array items, rest) := by
  rw [value, hopen]
  rfl

theorem value_brace (hopen : skipBlanks cs = '\x7b' :: inner) :
    value (fuel + 1) cs =
      match skipBlanks inner with
      | '\x7d' :: rest => some (.object [], rest)
      | rest => (members fuel rest).map fun (ms, rest) => (ofMembers ms, rest) := by
  rw [value, hopen]
  rfl

theorem value_array (hopen : skipBlanks cs = '[' :: inner)
    (hfirst : skipBlanks inner = c :: tail) (hc : c ≠ ']') :
    value (fuel + 1) cs
      = (elements fuel (c :: tail)).map fun (items, rest) => (.array items, rest) := by
  rw [value_bracket hopen, hfirst]
  split
  · next heq =>
    rw [List.cons.injEq] at heq
    exact absurd heq.1 hc
  · rfl

theorem elements_last (hvalue : value fuel cs = some (j, inner))
    (hclose : skipBlanks inner = ']' :: rest) :
    elements (fuel + 1) cs = some ([j], rest) := by
  simp only [elements, hvalue, Option.bind_eq_bind, Option.bind_some, hclose]

theorem elements_more (hvalue : value fuel cs = some (j, inner))
    (hcomma : skipBlanks inner = ',' :: rest) :
    elements (fuel + 1) cs
      = (elements fuel rest).map fun (items, rest) => (j :: items, rest) := by
  simp only [elements, hvalue, Option.bind_eq_bind, Option.bind_some, hcomma]

end Step

/-- A document of one token. -/
theorem value_token {ts : List (List Char)} {cs : List Char} {j : Json} (c : Char)
    (token : List Char) (h : Spaced ((c :: token) :: ts) cs) (hc : isBlank c = false)
    {fuel : Nat} (hread : ∀ rest, skipBlanks cs = c :: (token ++ rest) →
      value (fuel + 1) cs = some (j, rest)) :
    ∃ rest, value (fuel + 1) cs = some (j, rest) ∧ Spaced ts rest := by
  obtain ⟨rest, hskip, hrest⟩ := h.skip c token hc
  exact ⟨rest, hread rest hskip, hrest⟩

mutual

/-- A plain document is read from a text that spells it, up to the tokens that follow. -/
theorem value_spaced : ∀ (j : Json) (fuel : Nat) {ts : List (List Char)} {cs : List Char},
    IsPlain j → 2 * (write j).length ≤ fuel → Spaced (tokens j ++ ts) cs →
    ∃ rest, value fuel cs = some (j, rest) ∧ Spaced ts rest
  | .null, fuel + 1, ts, cs, _, _, h => by
      refine value_token 'n' "ull".toList h (by decide) fun rest hskip => ?_
      rw [value, hskip]
      rfl
  | .bool true, fuel + 1, ts, cs, _, _, h => by
      refine value_token 't' "rue".toList h (by decide) fun rest hskip => ?_
      rw [value, hskip]
      rfl
  | .bool false, fuel + 1, ts, cs, _, _, h => by
      refine value_token 'f' "alse".toList h (by decide) fun rest hskip => ?_
      rw [value, hskip]
      rfl
  | .string s, fuel + 1, ts, cs, _, _, h => by
      refine value_token '"' (s.toList.flatMap escapeChar ++ ['"']) h (by decide)
        fun rest hskip => ?_
      rw [value, hskip]
      show (string? _).map _ = _
      rw [List.append_assoc, List.singleton_append, string?_quote]
      rfl
  | .array [], fuel + 1, ts, cs, _, _, h => by
      have htokens : Spaced (['['] :: [']'] :: ts) cs := h
      obtain ⟨inner, hopen, hinner⟩ := htokens.skip_symbol '[' (by decide)
      obtain ⟨rest, hclose, hrest⟩ := hinner.skip_symbol ']' (by decide)
      refine ⟨rest, ?_, hrest⟩
      rw [value_bracket hopen, hclose]
      rfl
  | .array (j :: js), fuel + 1, ts, cs, hj, hfuel, h => by
      have htokens : tokens (.array (j :: js)) ++ ts
          = ['['] :: (itemTokens (j :: js) ++ [']'] :: ts) := by
        simp [tokens]
      have hlen : (write (.array (j :: js))).length = (writeItems (j :: js)).length + 2 := by
        simp [write]
      rw [htokens] at h
      obtain ⟨inner, hopen, hinner⟩ := h.skip_symbol '[' (by decide)
      -- the first item does not look like the end of the array
      obtain ⟨c, token, more, hhead, hblank, hclose⟩ := itemTokens_head hj.1 js
      rw [hhead] at hinner
      obtain ⟨tail, hskip, -⟩ := hinner.skip c token hblank
      have hitems : Spaced (itemTokens (j :: js) ++ [']'] :: ts) (skipBlanks inner) := by
        rw [hhead]
        exact hinner.skipBlanks hblank
      obtain ⟨rest, helements, hrest⟩ := elements_spaced j js fuel hj (by omega) hitems
      refine ⟨rest, ?_, hrest⟩
      rw [value_array hopen hskip hclose, ← hskip, helements]
      rfl
  | .object [], fuel + 1, ts, cs, _, _, h => by
      have htokens : Spaced (['\x7b'] :: ['\x7d'] :: ts) cs := h
      obtain ⟨inner, hopen, hinner⟩ := htokens.skip_symbol '\x7b' (by decide)
      obtain ⟨rest, hclose, hrest⟩ := hinner.skip_symbol '\x7d' (by decide)
      refine ⟨rest, ?_, hrest⟩
      rw [value_brace hopen, hclose]
      rfl
  | .object ((key, j) :: js), fuel + 1, ts, cs, hj, hfuel, h => by
      have htokens : tokens (.object ((key, j) :: js)) ++ ts
          = ['\x7b'] :: (memberTokens ((key, j) :: js) ++ ['\x7d'] :: ts) := by
        simp [tokens]
      have hlen : (write (.object ((key, j) :: js))).length
          = (writeMembers ((key, j) :: js)).length + 2 := by
        simp [write]
      rw [htokens] at h
      obtain ⟨inner, hopen, hinner⟩ := h.skip_symbol '\x7b' (by decide)
      -- a member starts with the quotation mark of its key
      obtain ⟨more, hhead⟩ := memberTokens_head key j js
      rw [hhead] at hinner
      obtain ⟨tail, hskip, -⟩ :=
        Spaced.skip '"' (key.toList.flatMap escapeChar ++ ['"']) hinner (by decide)
      have hmembers : Spaced (memberTokens ((key, j) :: js) ++ ['\x7d'] :: ts)
          (skipBlanks inner) := by
        rw [hhead]
        exact Spaced.skipBlanks (c := '"') hinner (by decide)
      obtain ⟨rest, hread, hrest⟩ := members_spaced key j js fuel hj (by omega) hmembers
      refine ⟨rest, ?_, hrest⟩
      rw [value_brace hopen, hskip]
      show (members fuel ('"' :: _)).map _ = _
      rw [hskip] at hread
      rw [hread]
      show some (ofMembers (((key, j) :: js).map fun m => (some m.1, m.2)), rest) = _
      rw [ofMembers_some]
  | .null, 0, _, _, _, hfuel, _ => by simp [write] at hfuel
  | .bool b, 0, _, _, _, hfuel, _ => by cases b <;> simp [write] at hfuel
  | .string s, 0, _, _, _, hfuel, _ => by simp [write, quote] at hfuel
  | .array items, 0, _, _, _, hfuel, _ => by simp [write] at hfuel
  | .object members, 0, _, _, _, hfuel, _ => by simp [write] at hfuel

/-- The items of an array are read, up to its closing bracket. -/
theorem elements_spaced : ∀ (j : Json) (js : List Json) (fuel : Nat) {ts : List (List Char)}
    {cs : List Char}, ArePlain (j :: js) → 2 * (writeItems (j :: js)).length + 1 ≤ fuel →
    Spaced (itemTokens (j :: js) ++ [']'] :: ts) cs →
    ∃ rest, elements fuel cs = some (j :: js, rest) ∧ Spaced ts rest
  | j, [], fuel + 1, ts, cs, hj, hfuel, h => by
      rw [writeItems] at hfuel
      rw [itemTokens] at h
      obtain ⟨inner, hvalue, hinner⟩ := value_spaced j fuel hj.1 (by omega) h
      obtain ⟨rest, hclose, hrest⟩ := Spaced.skip_symbol ']' hinner (by decide)
      exact ⟨rest, elements_last hvalue hclose, hrest⟩
  | j, k :: ks, fuel + 1, ts, cs, hj, hfuel, h => by
      have hlen : (writeItems (j :: k :: ks)).length
          = (write j).length + (writeItems (k :: ks)).length + 1 := by
        rw [writeItems_cons, List.length_append, List.length_cons]
        omega
      rw [itemTokens_cons, List.append_assoc] at h
      obtain ⟨inner, hvalue, hinner⟩ := value_spaced j fuel hj.1 (by omega) h
      obtain ⟨others, hcomma, hothers⟩ := Spaced.skip_symbol ',' hinner (by decide)
      obtain ⟨rest, hks, hrest⟩ := elements_spaced k ks fuel hj.2 (by omega) hothers
      refine ⟨rest, ?_, hrest⟩
      rw [elements_more hvalue hcomma]
      show (elements fuel others).map _ = _
      rw [hks]
      rfl

/-- The members of an object are read, up to its closing brace. -/
theorem members_spaced : ∀ (key : String) (j : Json) (js : List (String × Json)) (fuel : Nat)
    {ts : List (List Char)} {cs : List Char}, ArePlainMembers ((key, j) :: js) →
    2 * (writeMembers ((key, j) :: js)).length + 1 ≤ fuel →
    Spaced (memberTokens ((key, j) :: js) ++ ['\x7d'] :: ts) cs →
    ∃ rest, members fuel cs = some (((key, j) :: js).map fun m => (some m.1, m.2), rest)
      ∧ Spaced ts rest
  | key, j, [], fuel + 1, ts, cs, hj, hfuel, h => by
      have hlen : (write j).length ≤ (writeMembers [(key, j)]).length := by
        simp only [writeMembers, List.length_append, List.length_cons]
        omega
      rw [memberTokens] at h
      obtain ⟨item, hitem, hread⟩ := members_quote fuel h
      obtain ⟨inner, hvalue, hinner⟩ := value_spaced j fuel hj.1 (by omega) hitem
      obtain ⟨rest, hclose, hrest⟩ := Spaced.skip_symbol '\x7d' hinner (by decide)
      refine ⟨rest, ?_, hrest⟩
      rw [hread, hvalue, Option.bind_some]
      dsimp only
      rw [hclose]
      rfl
  | key, j, (key', k) :: ks, fuel + 1, ts, cs, hj, hfuel, h => by
      have hlen : (write j).length + (writeMembers ((key', k) :: ks)).length + 1
          ≤ (writeMembers ((key, j) :: (key', k) :: ks)).length := by
        simp only [writeMembers_cons, List.length_append, List.length_cons]
        omega
      rw [memberTokens_cons, List.append_assoc] at h
      obtain ⟨item, hitem, hread⟩ := members_quote fuel h
      obtain ⟨inner, hvalue, hinner⟩ := value_spaced j fuel hj.1 (by omega) hitem
      obtain ⟨others, hcomma, hothers⟩ := Spaced.skip_symbol ',' hinner (by decide)
      obtain ⟨rest, hks, hrest⟩ := members_spaced key' k ks fuel hj.2 (by omega) hothers
      refine ⟨rest, ?_, hrest⟩
      rw [hread, hvalue, Option.bind_some]
      dsimp only
      rw [hcomma]
      show (members fuel others).map _ = _
      rw [hks]
      rfl

end

/-- A text that spells a plain document is read as that document. -/
theorem parse_spaced {j : Json} (hj : IsPlain j) {text : String}
    (h : Spaced (tokens j) text.toList) : parse text = some j := by
  have hlength := h.length_flatten_le
  rw [flatten_tokens] at hlength
  rw [← List.append_nil (tokens j)] at h
  obtain ⟨rest, hvalue, hrest⟩ := value_spaced j (2 * text.toList.length + 2) hj (by omega) h
  simp only [parse, hvalue, hrest.skipBlanks_eq_nil]
  rfl

end SchemaEvolution.Json
