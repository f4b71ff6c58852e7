import SchemaEvolution.Proofs.Template.Pass
import Mathlib.Data.List.TakeWhile

set_option autoImplicit false

/-! # The pieces of a template

The segments of a template are those of its pieces (`segments_eq`), which put together are the
template (`flatMap_source_pieces`). A word stands in plain text, is made of word characters, and is
cut off by one boundary character; a piece without a word ends with a comment or with the template.
-/

namespace SchemaEvolution.Template

deriving instance DecidableEq for Piece

/-- The pieces of a template, in order. -/
def pieces (cs : List Char) : List Piece :=
  if _h : cs = [] then [] else piece cs :: pieces (piece cs).rest
termination_by cs.length
decreasing_by exact piece_rest_lt _h

/-- The cleaned text of a piece. -/
def Piece.text (p : Piece) : List Char := clean .plain false p.source

/-- The segment of a piece whose first byte is at `start`. -/
def Piece.segment (start : Nat) (p : Piece) : Segment where
  text := String.ofList p.text
  symbol := (symbolOf p.word).map String.ofList
  start := start
  stop := start + byteLength p.source

/-- The segments of pieces of which the first starts with the byte at `start`. -/
def segmentsOf (start : Nat) : List Piece → List Segment
  | [] => []
  | p :: ps => p.segment start :: segmentsOf (start + byteLength p.source) ps

theorem pieces_nil : pieces [] = [] := by rw [pieces, dif_pos rfl]

theorem pieces_of_ne_nil {cs : List Char} (h : cs ≠ []) :
    pieces cs = piece cs :: pieces (piece cs).rest := by rw [pieces, dif_neg h]

theorem segmentsFrom_eq (start : Nat) (cs : List Char) :
    segmentsFrom start cs = segmentsOf start (pieces cs) := by
  fun_induction segmentsFrom start cs with
  | case1 => rw [pieces_nil, segmentsOf]
  | case2 start cs h p stop ih =>
      rw [pieces_of_ne_nil h, segmentsOf, ih]
      rfl

theorem segments_eq (query : String) : segments query = segmentsOf 0 (pieces query.toList) :=
  segmentsFrom_eq 0 query.toList

theorem flatMap_text_segmentsOf (start : Nat) (ps : List Piece) :
    (segmentsOf start ps).flatMap (·.text.toList) = ps.flatMap Piece.text := by
  induction ps generalizing start with
  | nil => rfl
  | cons p ps ih =>
      rw [segmentsOf, List.flatMap_cons, List.flatMap_cons, ih, Piece.segment, String.toList_ofList]

theorem flatMap_source_pieces (cs : List Char) : (pieces cs).flatMap Piece.source = cs := by
  fun_induction pieces cs with
  | case1 => rfl
  | case2 cs h ih => rw [List.flatMap_cons, ih, piece_append]

/-! ## The shape of a piece -/

section Shape

variable (cs : List Char)

theorem piece_skipped : (piece cs).skipped = (lead .plain cs).skipped := by
  unfold piece Lead.piece
  split <;> rfl

theorem piece_word : ∀ c ∈ (piece cs).word, isBoundary c = false := by
  unfold piece Lead.piece
  split
  · simp
  · intro c hc
    simpa using List.mem_takeWhile_imp hc

theorem piece_closing :
    (piece cs).closing = []
      ∨ ∃ c, (piece cs).closing = [c] ∧ isBoundary c = true ∧ (piece cs).word ≠ [] := by
  have hstart := lead_rest .plain cs
  unfold piece Lead.piece
  split
  · exact .inl rfl
  · next hend =>
    rw [Bool.not_eq_true] at hend
    cases hrest : (lead .plain cs).rest with
    | nil => exact .inl rfl
    | cons c rest =>
        have hc : isBoundary c = false := hstart hend c (by rw [hrest, List.head?_cons]; rfl)
        have hword : (c :: rest).takeWhile (!isBoundary ·) ≠ [] := by simp [hc]
        cases hdrop : (c :: rest).dropWhile (!isBoundary ·) with
        | nil => exact .inl rfl
        | cons d tail =>
            have hnot := List.head?_dropWhile_not (!isBoundary ·) (c :: rest)
            rw [hdrop, List.head?_cons] at hnot
            exact .inr ⟨d, rfl, by simpa using hnot, hword⟩

/-- A boundary character behind what is skipped is the one that ends the word. -/
theorem word_of_boundary {cs inner tail : List Char} {c : Char}
    (hcs : cs = (piece cs).skipped ++ (inner ++ c :: tail)) (hc : isBoundary c = true)
    (hlt : ((piece cs).skipped ++ inner).length < (piece cs).source.length) :
    (piece cs).word ≠ [] ∧ inner = (piece cs).word := by
  have hwhole := piece_append cs
  have hword := piece_word cs
  have hclosing := piece_closing cs
  generalize piece cs = p at hcs hlt hwhole hword hclosing ⊢
  rw [hcs, Piece.source, List.append_assoc, List.append_assoc, List.append_cancel_left_eq] at hwhole
  simp only [Piece.source, List.length_append] at hlt
  rcases Nat.lt_or_ge inner.length p.word.length with hin | hout
  · have hget := congrArg (·[inner.length]?) hwhole
    simp only [List.getElem?_append_left hin, List.getElem?_append_right (Nat.le_refl _),
      Nat.sub_self, List.getElem?_cons_zero] at hget
    have hnot := hword c (List.mem_of_getElem? hget)
    rw [hc] at hnot
    cases hnot
  · rcases hclosing with hnil | ⟨d, hd, -, hne⟩
    · rw [hnil, List.length_nil] at hlt
      omega
    · rw [hd, List.length_singleton] at hlt
      have hlength : p.word.length = inner.length := by omega
      exact ⟨hne, ((List.append_inj hwhole hlength).1).symm⟩

/-- A word stands in plain text. -/
theorem modeAt_skipped (h : (piece cs).word ≠ []) :
    modeAt .plain (piece cs).skipped ((piece cs).word ++ (piece cs).closing ++ (piece cs).rest)
      = .plain := by
  have hplain := modeAt_lead .plain cs
  unfold piece Lead.piece at h ⊢
  split at h
  · exact absurd rfl h
  · next hend =>
    rw [if_neg hend]
    simp only [List.append_assoc, List.take_append_drop, List.takeWhile_append_dropWhile]
    refine hplain (.inr fun hrest => h ?_)
    rw [hrest]
    rfl

/-- Without a word, a piece ends with a comment or with the template. -/
theorem modeAt_source_of_word_eq_nil (h : (piece cs).word = []) (hrest : (piece cs).rest ≠ []) :
    modeAt .plain (piece cs).source (piece cs).rest = .plain := by
  have hplain := modeAt_lead .plain cs
  have hstart := lead_rest .plain cs
  unfold Piece.source
  unfold piece Lead.piece at h hrest ⊢
  split at h
  · next hend =>
    rw [if_pos hend]
    simpa using hplain (.inl hend)
  · next hend =>
    rw [if_neg hend] at hrest
    rw [Bool.not_eq_true] at hend
    cases hleft : (lead .plain cs).rest with
    | nil => exact absurd (by rw [hleft]; rfl) hrest
    | cons c rest =>
        have hc : isBoundary c = false := hstart hend c (by rw [hleft, List.head?_cons]; rfl)
        simp [hleft, hc] at h

end Shape

/-- A piece of a template is cut off what follows the pieces before it. -/
theorem pieces_eq_append {cs : List Char} {earlier : List Piece} {p : Piece} {later : List Piece}
    (h : pieces cs = earlier ++ p :: later) :
    cs = earlier.flatMap Piece.source ++ (p.source ++ later.flatMap Piece.source)
      ∧ piece (p.source ++ later.flatMap Piece.source) = p
      ∧ p.rest = later.flatMap Piece.source := by
  induction earlier generalizing cs with
  | nil =>
      by_cases hcs : cs = []
      · rw [hcs, pieces_nil] at h
        cases h
      · rw [pieces_of_ne_nil hcs, List.nil_append, List.cons.injEq] at h
        obtain ⟨rfl, rfl⟩ := h
        rw [flatMap_source_pieces, piece_append]
        exact ⟨rfl, rfl, rfl⟩
  | cons q earlier ih =>
      by_cases hcs : cs = []
      · rw [hcs, pieces_nil] at h
        cases h
      · rw [pieces_of_ne_nil hcs, List.cons_append, List.cons.injEq] at h
        obtain ⟨rfl, h⟩ := h
        obtain ⟨hrest, hp⟩ := ih h
        rw [List.flatMap_cons, List.append_assoc, ← hrest, piece_append]
        exact ⟨rfl, hp⟩

end SchemaEvolution.Template
