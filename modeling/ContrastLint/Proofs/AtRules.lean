import ContrastLint.Proofs.Gaps
import ContrastLint.Stylesheet.Parse
import ContrastLint.Stylesheet.Render

/-!
# At-rules written and read again

The name of an at-rule ends at white space or at a parenthesis, and its
parameters are trimmed.  Written with one space between the two, both are found
again.
-/

namespace ContrastLint

namespace AtRule

open Text

variable {Place : Type}

def endsName (c : Char) : Bool :=
  isWhite c || c == '('

/-- An at-rule as it is written up to its block or its semicolon. -/
def head (a : AtRule Place) : List Char :=
  '@' :: (a.name.toList ++ if a.params.toList = [] then [] else ' ' :: a.params.toList)

theorem toList_render (a : AtRule Place) :
    a.render.toList = a.head ++
      match a.block with
      | some block => ' ' :: '{' :: (block.toList ++ ['}', '\n'])
      | none => [';', '\n'] := by
  rcases a with ⟨name, params, block, place⟩
  cases block <;> by_cases h : params = "" <;> simp [render, head, h]

/-- The at-rules that can be read from a text. -/
structure Legible (a : AtRule Place) : Prop where
  name : ∀ c ∈ a.name.toList, endsName c = false
  params : Trimmed a.params.toList
  unnamed : a.name.toList = [] → ∀ c ∈ a.params.toList.head?, c = '('

theorem read_eq (text : List Char) (block : Option (List Char)) (place : Nat) :
    read text block place =
      { name := .ofList ((trim text).takeWhile (!endsName ·))
        params := .ofList (trim ((trim text).dropWhile (!endsName ·)))
        block := block.map .ofList
        place } := rfl

theorem eq_openParen_of_endsName
    {c : Char} (h : endsName c = true) (hc : isWhite c = false) : c = '(' := by
  simpa [endsName, hc] using h

/-- Around the name and the parameters of an at-rule there is only white space,
and there is some between them unless the parameters start with a parenthesis. -/
theorem exists_layout (text : List Char) (block : Option (List Char)) (place : Nat) :
    ∃ before gap back, White before ∧ White gap ∧ White back ∧
      (gap = [] → ∀ c ∈ (read text block place).params.toList.head?, c = '(') ∧
      text = before ++ ((read text block place).name.toList ++
        (gap ++ ((read text block place).params.toList ++ back))) := by
  obtain ⟨before, after, hbefore, hafter, htext⟩ := exists_trim text
  obtain ⟨gap, back, hgap, hback, hrest⟩ :=
    exists_trim ((trim text).dropWhile (!endsName ·))
  rw [read_eq]
  simp only [String.toList_ofList]
  refine ⟨before, gap, back ++ after, hbefore, hgap, hback.append hafter, ?_, ?_⟩
  · rintro rfl c hc
    have hend : c ∈ ((trim text).dropWhile (!endsName ·)).head? := by
      rw [hrest, List.nil_append]
      exact List.mem_head?_append_of_mem_head? hc
    have hstop := List.head?_dropWhile_not (!endsName ·) (trim text)
    rw [Option.mem_def.mp hend] at hstop
    exact eq_openParen_of_endsName (by simpa using hstop) ((trimmed_trim _).head c hc)
  · have hsplit : trim text = (trim text).takeWhile (!endsName ·) ++
        (gap ++ trim ((trim text).dropWhile (!endsName ·)) ++ back) := by
      rw [← hrest]
      exact List.takeWhile_append_dropWhile.symm
    conv_lhs => rw [htext, hsplit]
    simp

theorem legible_read (text : List Char) (block : Option (List Char)) (place : Nat) :
    (read text block place).Legible := by
  rw [read_eq]
  constructor
  case name =>
    intro c hc
    rw [String.toList_ofList] at hc
    simpa using List.mem_takeWhile_imp hc
  case params =>
    rw [String.toList_ofList]
    exact trimmed_trim _
  case unnamed =>
    simp only [String.toList_ofList]
    intro hempty c hc
    have hdrop : (trim text).dropWhile (!endsName ·) = trim text := by
      conv_rhs => rw [← List.takeWhile_append_dropWhile (p := (!endsName ·)) (l := trim text),
        hempty, List.nil_append]
    rw [hdrop, trim_of_trimmed (trimmed_trim text)] at hc
    have hstop := List.head?_dropWhile_not (!endsName ·) (trim text)
    rw [hdrop, Option.mem_def.mp hc] at hstop
    exact eq_openParen_of_endsName (by simpa using hstop) ((trimmed_trim text).head c hc)

namespace Legible

variable {a : AtRule Place}

theorem name_white (h : a.Legible) : ∀ c ∈ a.name.toList, isWhite c = false := by
  intro c hc
  have hends := h.name c hc
  unfold endsName at hends
  exact (Bool.or_eq_false_iff.mp hends).1

theorem trimmed_name (h : a.Legible) : Trimmed a.name.toList :=
  ⟨fun c hc => h.name_white c (List.mem_of_mem_head? hc),
    fun c hc => h.name_white c (List.mem_of_getLast? hc)⟩

theorem trimmed_head (h : a.Legible) : Trimmed a.head := by
  have hat : Trimmed ['@'] := ⟨by simp [isWhite], by simp [isWhite]⟩
  unfold head
  by_cases hparams : a.params.toList = []
  · rw [if_pos hparams, List.append_nil]
    by_cases hname : a.name.toList = []
    · rw [hname]
      exact hat
    · exact hat.append h.trimmed_name (by simp) hname []
  · rw [if_neg hparams]
    have hjoin := hat.append h.params (by simp) hparams (a.name.toList ++ [' '])
    simpa using hjoin

theorem exists_trim_tail (h : a.Legible) :
    ∃ rest, trim a.head.tail = a.name.toList ++ rest ∧ trim rest = a.params.toList ∧
      ∀ c ∈ rest.head?, endsName c = true := by
  have hends : endsName ' ' = true := rfl
  simp only [head, List.tail_cons]
  by_cases hparams : a.params.toList = []
  · refine ⟨[], ?_, by simp [hparams], by simp⟩
    rw [if_pos hparams, List.append_nil]
    exact trim_of_trimmed h.trimmed_name
  · rw [if_neg hparams]
    by_cases hname : a.name.toList = []
    · refine ⟨a.params.toList, ?_, trim_of_trimmed h.params, ?_⟩
      · rw [hname]
        exact (trim_append_left white_space).trans (trim_of_trimmed h.params)
      · intro c hc
        obtain rfl := h.unnamed hname c hc
        rfl
    · refine ⟨' ' :: a.params.toList, ?_, ?_, by simpa using hends⟩
      · have hjoin := h.trimmed_name.append h.params hname hparams [' ']
        exact trim_of_trimmed (by simpa using hjoin)
      · exact (trim_append_left white_space).trans (trim_of_trimmed h.params)

theorem read_head (h : a.Legible) (place : Nat) :
    read a.head.tail (a.block.map String.toList) place = a.map fun _ => place := by
  obtain ⟨rest, htrim, hrest, hends⟩ := h.exists_trim_tail
  have hpass : ∀ c ∈ a.name.toList, (!endsName c) = true := by
    intro c hc
    simp [h.name c hc]
  have htake : (a.name.toList ++ rest).takeWhile (!endsName ·) = a.name.toList := by
    rw [List.takeWhile_append_of_pos hpass]
    cases rest with
    | nil => simp
    | cons c rest => simp [hends c rfl]
  have hdrop : (a.name.toList ++ rest).dropWhile (!endsName ·) = rest := by
    rw [List.dropWhile_append_of_pos hpass]
    cases rest with
    | nil => rfl
    | cons c rest => simp [hends c rfl]
  have hblock : (a.block.map String.toList).map String.ofList = a.block := by
    cases a.block <;> simp
  rw [read_eq, htrim, htake, hdrop, hrest, hblock]
  simp [map]

end Legible

/-- A parenthesis is read alike just after a backslash and after a gap there. -/
theorem reading_settled_open
    {k k' : Cursor} {text : List Char} (h : Reading k ('(' :: text) k') :
    Reading ⟨k.quoting.settle, k.depth⟩ ('(' :: text) k' := by
  rcases k with ⟨s, depth⟩
  -- Only a state just after a backslash settles, and it hides the parenthesis.
  cases s with
  | escaped q =>
      have hnext : Cursor.text? ⟨.inside q, depth⟩ '(' = Cursor.text? ⟨.escaped q, depth⟩ '(' := by
        cases q <;> rfl
      have hquoting : (Quoting.inside q).next '(' = (Quoting.escaped q).next '(' := by
        cases q <;> rfl
      rcases h with ⟨hread, hfree⟩
      constructor
      case read =>
        rw [Cursor.readText_cons] at hread ⊢
        rw [Quoting.settle, hnext]
        exact hread
      case free =>
        rw [Comment.free_cons] at hfree ⊢
        refine ⟨by simp, ?_⟩
        rw [Quoting.settle, hquoting]
        exact hfree.2
  | _ => exact h

theorem reading_space_open
    {k k' : Cursor} {text : List Char} (h : Reading k ('(' :: text) k') :
    Reading k (' ' :: '(' :: text) k' := by
  have hspace : Reading k [' '] ⟨k.quoting.settle, k.depth⟩ := by
    constructor
    case read =>
      rw [Cursor.readText_neutral writtenGap_space.neutral, writtenGap_space.after]
    case free => exact Comment.free_of_notMem writtenGap_space.slash
  exact hspace.append (reading_settled_open h) (.inl writtenGap_space.slash)

/-- One space may be written before parameters, whatever gap they stand after. -/
theorem reading_params
    {k : Cursor} {gap params back : List Char} {depth : Nat}
    (h : Reading k (gap ++ (params ++ back)) ⟨.outside, depth⟩)
    (hgap : White gap) (hback : White back) (hparams : params ≠ [])
    (hopen : gap = [] → ∀ c ∈ params.head?, c = '(') :
    Reading k (' ' :: params) ⟨.outside, depth⟩ := by
  by_cases hempty : gap = []
  · rw [hempty, List.nil_append] at h
    have hbare := h.of_append_white hback
    obtain ⟨c, rest, rfl⟩ := List.exists_cons_of_ne_nil hparams
    obtain rfl : c = '(' := hopen hempty c rfl
    exact reading_space_open hbare
  · have hwritten := h.gap_append hgap.neutral hempty (by simp) writtenGap_space
    rw [← List.append_assoc] at hwritten
    exact hwritten.of_append_white hback

theorem reading_tail
    {text : List Char} {block : Option (List Char)} {place depth : Nat}
    (h : Reading .start text ⟨.outside, depth⟩) :
    Reading .start (read text block place).head.tail ⟨.outside, depth⟩ := by
  obtain ⟨before, gap, back, hbefore, hgap, hback, hopen, htext⟩ :=
    exists_layout text block place
  generalize read text block place = a at hopen htext
  rw [htext, Cursor.start, Reading.white_append_iff hbefore] at h
  simp only [head, List.tail_cons]
  by_cases hparams : a.params.toList = []
  · rw [if_pos hparams, List.append_nil]
    rw [hparams, List.nil_append] at h
    exact h.of_append_white (hgap.append hback)
  · rw [if_neg hparams]
    rcases h.split with ⟨m, hname, hrest⟩
    exact hname.append (reading_params hrest hgap hback hparams hopen) (.inr (by simp))

/-- An at-rule is read, up to its end, like the text that it stands in. -/
theorem reading_head
    {source text : List Char} {block : Option (List Char)} {place depth : Nat}
    (hat : trim source = '@' :: text) (h : Reading .start source ⟨.outside, depth⟩) :
    Reading .start (read text block place).head ⟨.outside, depth⟩ := by
  obtain ⟨front, back, hfront, hback, hsource⟩ := exists_trim source
  have hsign : Reading .start ['@'] .start := by
    constructor
    case read => rfl
    case free => exact Comment.free_of_notMem (by simp)
  rw [hsource, hat, List.append_assoc, Cursor.start, Reading.white_append_iff hfront] at h
  rcases (h.of_append_white hback).split (a := ['@']) with ⟨m, hleft, hright⟩
  have hm := hleft.read
  cases hm
  exact hsign.append (reading_tail hright) (.inl (by simp))

end AtRule

end ContrastLint
