import SchemaEvolution.Proofs.Template.Pieces
import Mathlib.Data.String.Basic

set_option autoImplicit false

/-! # Segments cover the template

No piece of a template is empty, and the pieces put together are the template. So the spans of the
segments lie one behind the other from its first byte to its end (`tiles_segmentsOf`), and each
begins and ends where a character does. Cleaning changes nothing but comments and control
characters (`clean_eq_self`), so the texts of a template without them are the template
(`segments_cover`).
-/

namespace SchemaEvolution.Template

/-! ## Bytes -/

theorem byteLength_eq (cs : List Char) : byteLength cs = String.utf8Len cs := by
  induction cs with
  | nil => rfl
  | cons c cs ih =>
      rw [String.utf8Len_cons, ← ih, Nat.add_comm]
      rfl

theorem byteLength_append (as bs : List Char) :
    byteLength (as ++ bs) = byteLength as + byteLength bs := by
  simp only [byteLength_eq, String.utf8Len_append]

theorem byteLength_toList (s : String) : byteLength s.toList = s.utf8ByteSize := by
  rw [byteLength_eq, String.utf8Len_toList]

theorem byteLength_pos {cs : List Char} (h : cs ≠ []) : 0 < byteLength cs := by
  rw [byteLength_eq, Nat.pos_iff_ne_zero, Ne, String.utf8Len_eq_zero]
  exact h

/-! ## Spans -/

/-- Segments one behind the other, none of them empty, of which the first starts with the byte at
`start` and the last stops before the byte at `stop`. -/
def Tiles (start stop : Nat) : List Segment → Prop
  | [] => start = stop
  | s :: later => s.start = start ∧ start < s.stop ∧ Tiles s.stop stop later

/-- The segment spans this part of a query. -/
def Segment.Spans (s : Segment) (query source : String) : Prop :=
  ∃ before after, query = before ++ source ++ after
    ∧ s.start = before.utf8ByteSize ∧ s.stop = (before ++ source).utf8ByteSize

theorem Segment.Spans.isValid {s : Segment} {query source : String} (h : s.Spans query source) :
    String.Pos.Raw.IsValid query ⟨s.start⟩ ∧ String.Pos.Raw.IsValid query ⟨s.stop⟩ := by
  obtain ⟨before, after, rfl, hstart, hstop⟩ := h
  rw [hstart, hstop]
  refine ⟨String.Pos.Raw.isValid_iff_exists_append.mpr ⟨before, source ++ after, ?_, rfl⟩,
    String.Pos.Raw.isValid_iff_exists_append.mpr ⟨before ++ source, after, rfl, rfl⟩⟩
  rw [String.append_assoc]

theorem source_ne_nil_of_mem_pieces {cs : List Char} {p : Piece} (h : p ∈ pieces cs) :
    p.source ≠ [] := by
  fun_induction pieces cs with
  | case1 => cases h
  | case2 cs hcs ih =>
      rcases List.mem_cons.mp h with rfl | h
      · exact piece_source_ne_nil hcs
      · exact ih h

/-- The segments of non-empty pieces tile what the pieces are cut from. -/
theorem tiles_segmentsOf (start : Nat) {ps : List Piece} (h : ∀ p ∈ ps, p.source ≠ []) :
    Tiles start (start + byteLength (ps.flatMap Piece.source)) (segmentsOf start ps) := by
  induction ps generalizing start with
  | nil => rfl
  | cons p ps ih =>
      rw [List.forall_mem_cons] at h
      have hpos := byteLength_pos h.1
      refine ⟨rfl, Nat.lt_add_of_pos_right hpos, ?_⟩
      rw [List.flatMap_cons, byteLength_append, ← Nat.add_assoc]
      exact ih (start + byteLength p.source) h.2

theorem mem_segmentsOf {start : Nat} {ps : List Piece} {s : Segment}
    (h : s ∈ segmentsOf start ps) :
    ∃ earlier p later, ps = earlier ++ p :: later
      ∧ s = p.segment (start + byteLength (earlier.flatMap Piece.source)) := by
  induction ps generalizing start with
  | nil => cases h
  | cons p ps ih =>
      rcases List.mem_cons.mp h with rfl | h
      · exact ⟨[], p, ps, rfl, rfl⟩
      · obtain ⟨earlier, q, later, rfl, rfl⟩ := ih h
        refine ⟨p :: earlier, q, later, rfl, ?_⟩
        rw [List.flatMap_cons, byteLength_append, Nat.add_assoc]

/-- Every segment of a query is that of a piece, and spans the source of the piece. -/
theorem exists_piece_of_mem_segments {query : String} {s : Segment} (h : s ∈ segments query) :
    ∃ cs start, s = (piece cs).segment start ∧ s.Spans query (String.ofList (piece cs).source) := by
  rw [segments_eq] at h
  obtain ⟨earlier, p, later, hsplit, rfl⟩ := mem_segmentsOf h
  obtain ⟨hquery, hpiece, -⟩ := pieces_eq_append hsplit
  refine ⟨_, _, by rw [hpiece], String.ofList (earlier.flatMap Piece.source),
    String.ofList (later.flatMap Piece.source), ?_, ?_, ?_⟩
  · rw [← String.toList_inj, hquery, hpiece]
    simp
  · rw [Piece.segment, Nat.zero_add, ← byteLength_toList, String.toList_ofList]
  · rw [Piece.segment, hpiece, Nat.zero_add, ← byteLength_toList, ← String.ofList_append,
      String.toList_ofList, byteLength_append]

/-- Every segment of a query spans a part of it, and has the cleaned text of that part. -/
theorem exists_spans_of_mem_segments {query : String} {s : Segment} (h : s ∈ segments query) :
    ∃ source : String, s.Spans query source
      ∧ s.text = String.ofList (clean .plain false source.toList) := by
  obtain ⟨cs, start, rfl, hspans⟩ := exists_piece_of_mem_segments h
  refine ⟨_, hspans, ?_⟩
  rw [Piece.segment, Piece.text, String.toList_ofList]

/-! ## Texts that cleaning keeps -/

/-- A text without comments and control characters, quoted ones included. -/
def IsClean (cs : List Char) : Prop := ¬ ['-', '-'] <:+: cs ∧ ∀ c ∈ cs, ¬ c < ' '

theorem IsClean.of_infix {as bs : List Char} (h : IsClean bs) (hpart : as <:+: bs) :
    IsClean as :=
  ⟨fun hdashes => h.1 (hdashes.trans hpart), fun c hc => h.2 c (hpart.subset hc)⟩

theorem IsClean.not_opensComment {c : Char} {cs : List Char} (h : IsClean (c :: cs)) :
    opensComment c cs = false := by
  rw [Bool.eq_false_iff]
  intro hopens
  simp only [opensComment, Bool.and_eq_true, decide_eq_true_eq] at hopens
  obtain ⟨rfl, hhead⟩ := hopens
  obtain ⟨rest, rfl⟩ : ∃ rest, cs = '-' :: rest := by
    cases cs with
    | nil => cases hhead
    | cons d rest => exact ⟨rest, by rw [Option.some.inj hhead]⟩
  exact h.1 ⟨[], rest, rfl⟩

/-- Outside comments, cleaning keeps a text without comments and control characters. -/
theorem clean_eq_self {m : Mode} {cs : List Char} (h : IsClean cs) (hm : m ≠ .comment)
    (spaced : Bool) : clean m spaced cs = cs := by
  induction cs generalizing m spaced with
  | nil => rw [clean]
  | cons c cs ih =>
      have hopens := h.not_opensComment
      have hcontrol := h.2 c List.mem_cons_self
      have hkept : m.cleaned spaced c cs = [c] := by
        cases m with
        | comment => exact absurd rfl hm
        | quoted mark => rfl
        | plain => simp [Mode.cleaned, hopens, hcontrol]
      have hafter : m.after c cs ≠ .comment := by
        cases m with
        | comment => exact absurd rfl hm
        | quoted mark =>
            rw [Mode.after]
            split <;> exact Mode.noConfusion
        | plain =>
            rw [Mode.after, hopens]
            split <;> simp
      rw [clean_cons, hkept, ih (h.of_infix (List.suffix_cons c cs).isInfix) hafter]
      rfl

theorem flatMap_text_pieces {cs : List Char} (h : IsClean cs) :
    (pieces cs).flatMap Piece.text = cs := by
  have htext : (pieces cs).flatMap Piece.text = (pieces cs).flatMap Piece.source := by
    refine List.flatMap_congr fun p hp => ?_
    obtain ⟨earlier, later, hsplit⟩ := List.append_of_mem hp
    obtain ⟨hcs, -, -⟩ := pieces_eq_append hsplit
    refine clean_eq_self (h.of_infix ?_) (by decide) false
    rw [hcs]
    exact ⟨_, _, List.append_assoc _ _ _⟩
  rw [htext, flatMap_source_pieces]

/-- The spans of the segments are not empty and lie one behind the other from the first byte of a
query to its end; each starts and stops between two characters. The text of a segment is the cleaned
part of the query that it spans, and the texts of a query that has neither two dashes in a row nor a
control character are the query. -/
theorem segments_cover (query : String) :
    Tiles 0 query.utf8ByteSize (segments query)
      ∧ (∀ s ∈ segments query,
        String.Pos.Raw.IsValid query ⟨s.start⟩ ∧ String.Pos.Raw.IsValid query ⟨s.stop⟩)
      ∧ (∀ s ∈ segments query, ∃ source : String, s.Spans query source
        ∧ s.text = String.ofList (clean .plain false source.toList))
      ∧ (IsClean query.toList → String.join ((segments query).map (·.text)) = query) := by
  refine ⟨?_, fun s hs => ?_, fun s hs => exists_spans_of_mem_segments hs, fun h => ?_⟩
  · have hne : ∀ p ∈ pieces query.toList, p.source ≠ [] :=
      fun p hp => source_ne_nil_of_mem_pieces hp
    have htiles := tiles_segmentsOf 0 hne
    rwa [flatMap_source_pieces, Nat.zero_add, byteLength_toList, ← segments_eq] at htiles
  · obtain ⟨source, hspans, -⟩ := exists_spans_of_mem_segments hs
    exact hspans.isValid
  · rw [← String.toList_inj, String.toList_join, List.flatMap_map, segments_eq,
      flatMap_text_segmentsOf, flatMap_text_pieces h]

/-- The spans count bytes, of which a letter that is not ASCII has two here. -/
theorem segments_cover_letters :
    IsClean "naïve = ':Größe'".toList ∧ "naïve = ':Größe'".utf8ByteSize = 19
      ∧ Tiles 0 19 (segments "naïve = ':Größe'")
      ∧ String.join ((segments "naïve = ':Größe'").map (·.text)) = "naïve = ':Größe'" := by
  have hprinted : ("naïve = ':Größe'".toList.all fun c => !decide (c < ' ')) = true := by
    decide +kernel
  have hclean : IsClean "naïve = ':Größe'".toList :=
    ⟨by decide +kernel, fun c hc => by simpa using List.all_eq_true.mp hprinted c hc⟩
  have hsize : "naïve = ':Größe'".utf8ByteSize = 19 := by decide +kernel
  obtain ⟨htiles, -, -, hjoin⟩ := segments_cover "naïve = ':Größe'"
  rw [hsize] at htiles
  exact ⟨hclean, hsize, htiles, hjoin hclean⟩

end SchemaEvolution.Template
