import ContrastLint.Text.CharClass
import Mathlib.Data.List.TakeWhile
import Mathlib.Tactic

/-!
# Trimmed texts

What trimming returns is the only part of a text that is trimmed itself and
has nothing but white space around it.  Whoever knows such a part knows the
result of trimming, and need not follow the two scans from the ends.
-/

namespace ContrastLint.Text

def White (text : List Char) : Prop :=
  ∀ c ∈ text, isWhite c = true

/-- Neither end of the text is white. -/
structure Trimmed (text : List Char) : Prop where
  head : ∀ c ∈ text.head?, isWhite c = false
  last : ∀ c ∈ text.getLast?, isWhite c = false

variable {text core a b : List Char}

@[simp] theorem white_nil : White [] := by simp [White]

@[simp] theorem white_space : White [' '] := by simp [White, isWhite]

@[simp] theorem white_lineFeed : White ['\n'] := by simp [White, isWhite]

theorem White.append (ha : White a) (hb : White b) : White (a ++ b) := by
  intro c hc
  rcases List.mem_append.mp hc with h | h
  · exact ha c h
  · exact hb c h

theorem White.reverse (h : White text) : White text.reverse := by
  intro c hc
  exact h c (List.mem_reverse.mp hc)

theorem white_takeWhile (text : List Char) : White (text.takeWhile isWhite) := by
  intro c hc
  exact List.mem_takeWhile_imp hc

theorem white_takeWhile_isAsciiWhite (text : List Char) : White (text.takeWhile isAsciiWhite) := by
  intro c hc
  exact isWhite_of_isAsciiWhite (List.mem_takeWhile_imp hc)

theorem eq_blanks_append (text : List Char) :
    text = text.takeWhile isAsciiWhite ++ text.dropWhile isAsciiWhite :=
  List.takeWhile_append_dropWhile.symm

@[simp] theorem trimmed_nil : Trimmed [] := ⟨by simp, by simp⟩

theorem trimmed_of_forall (h : ∀ c ∈ text, isWhite c = false) : Trimmed text :=
  ⟨fun c hc => h c (List.mem_of_mem_head? hc), fun c hc => h c (List.mem_of_mem_getLast? hc)⟩

theorem Trimmed.reverse (h : Trimmed text) : Trimmed text.reverse :=
  ⟨by simpa using h.last, by simpa using h.head⟩

theorem dropWhile_isWhite_append
    (hwhite : White a) (hb : ∀ c ∈ b.head?, isWhite c = false) :
    (a ++ b).dropWhile isWhite = b := by
  rw [List.dropWhile_append_of_pos hwhite]
  cases b with
  | nil => rfl
  | cons c b =>
      have hc : isWhite c = false := hb c rfl
      simp [hc]

theorem takeWhile_isWhite_append
    (hwhite : White a) (hb : ∀ c ∈ b.head?, isWhite c = false) :
    (a ++ b).takeWhile isWhite = a := by
  rw [List.takeWhile_append_of_pos hwhite]
  cases b with
  | nil => simp
  | cons c b =>
      have hc : isWhite c = false := hb c rfl
      simp [hc]

theorem exists_white_append (text : List Char) :
    ∃ w, White w ∧ text = w ++ trimStart text :=
  ⟨text.takeWhile isWhite, white_takeWhile text, List.takeWhile_append_dropWhile.symm⟩

theorem head?_trimStart (text : List Char) : ∀ c ∈ (trimStart text).head?, isWhite c = false := by
  intro c hc
  have h := List.head?_dropWhile_not isWhite text
  rw [trimStart] at hc
  simpa [Option.mem_def.mp hc] using h

theorem exists_trimEnd_append (text : List Char) :
    ∃ w, White w ∧ text = trimEnd text ++ w := by
  obtain ⟨w, hw, hrest⟩ := exists_white_append text.reverse
  have hreverse := congrArg List.reverse hrest
  rw [List.reverse_reverse, List.reverse_append] at hreverse
  exact ⟨w.reverse, hw.reverse, hreverse⟩

theorem exists_trim_append (text : List Char) :
    ∃ w, White w ∧ trimStart text = trim text ++ w :=
  exists_trimEnd_append (trimStart text)

/-- Every text is what trimming returns with white space around it. -/
theorem exists_trim (text : List Char) :
    ∃ front back, White front ∧ White back ∧ text = front ++ trim text ++ back := by
  obtain ⟨front, hfront, htext⟩ := exists_white_append text
  obtain ⟨back, hback, hrest⟩ := exists_trim_append text
  refine ⟨front, back, hfront, hback, ?_⟩
  rw [List.append_assoc, ← hrest]
  exact htext

theorem trimmed_trim (text : List Char) : Trimmed (trim text) := by
  obtain ⟨back, hback, hrest⟩ := exists_trim_append text
  constructor
  · intro c hc
    apply head?_trimStart text c
    rw [hrest]
    exact List.mem_head?_append_of_mem_head? hc
  · intro c hc
    apply head?_trimStart (trimStart text).reverse c
    rw [trim, trimEnd, List.getLast?_reverse] at hc
    exact hc

/-- A trimmed part with white space around it is what trimming returns. -/
theorem trim_eq
    (ha : White a) (hb : White b) (hcore : Trimmed core) :
    trim (a ++ core ++ b) = core := by
  have hstart : trimStart (a ++ core ++ b) = trimStart (core ++ b) := by
    rw [trimStart, List.append_assoc, List.dropWhile_append_of_pos ha]
    rfl
  rw [trim, hstart]
  cases core with
  | nil =>
      have hnil : b.dropWhile isWhite = [] := List.dropWhile_eq_nil_iff.mpr hb
      simp [trimStart, hnil]
  | cons c core =>
      have hc : isWhite c = false := hcore.head c rfl
      have hkeep : trimStart (c :: core ++ b) = c :: core ++ b := by
        simp [trimStart, hc]
      rw [hkeep, trimEnd, List.reverse_append,
        dropWhile_isWhite_append hb.reverse hcore.reverse.head, List.reverse_reverse]

theorem trim_of_trimmed (h : Trimmed text) : trim text = text := by
  simpa using trim_eq white_nil white_nil h

theorem trim_append_append (ha : White a) (hb : White b) : trim (a ++ text ++ b) = trim text := by
  obtain ⟨front, back, hfront, hback, htext⟩ := exists_trim text
  have hsplit : a ++ text ++ b = a ++ front ++ trim text ++ (back ++ b) := by
    conv_lhs => rw [htext]
    simp
  rw [hsplit]
  exact trim_eq (ha.append hfront) (hback.append hb) (trimmed_trim text)

theorem trim_append_left (ha : White a) : trim (a ++ text) = trim text := by
  simpa using trim_append_append ha white_nil

theorem trim_dropWhile_isAsciiWhite (text : List Char) :
    trim (text.dropWhile isAsciiWhite) = trim text := by
  conv_rhs => rw [eq_blanks_append text]
  rw [trim_append_left (white_takeWhile_isAsciiWhite text)]

theorem takeWhile_isWhite (text : List Char) :
    text.takeWhile isWhite =
      text.takeWhile isAsciiWhite ++ (text.dropWhile isAsciiWhite).takeWhile isWhite := by
  conv_lhs => rw [eq_blanks_append text]
  exact List.takeWhile_append_of_pos (white_takeWhile_isAsciiWhite text)

theorem trim_eq_nil_iff : trim text = [] ↔ White text := by
  constructor
  · intro h
    obtain ⟨front, back, hfront, hback, htext⟩ := exists_trim text
    rw [htext, h, List.append_nil]
    exact hfront.append hback
  · intro h
    simpa using trim_eq h white_nil trimmed_nil

theorem mem_trim_iff {c : Char} (hc : isWhite c = false) : c ∈ trim text ↔ c ∈ text := by
  obtain ⟨front, back, hfront, hback, htext⟩ := exists_trim text
  have hnone : ∀ w, White w → c ∉ w := by
    intro w hw hmem
    rw [hw c hmem] at hc
    contradiction
  conv_rhs => rw [htext]
  simp [hnone front hfront, hnone back hback]

theorem head?_trim
    {c : Char} (hhead : text.head? = some c) (hc : isWhite c = false) :
    (trim text).head? = some c := by
  obtain ⟨rest, rfl⟩ := List.head?_eq_some_iff.mp hhead
  obtain ⟨w, hw, hstart⟩ := exists_trim_append (c :: rest)
  have hkeep : trimStart (c :: rest) = c :: rest := by
    simp [trimStart, hc]
  rw [hkeep] at hstart
  cases htrim : trim (c :: rest) with
  | nil =>
      rw [htrim, List.nil_append] at hstart
      have hwhite := hw c (by rw [← hstart]; exact List.mem_cons_self)
      rw [hwhite] at hc
      contradiction
  | cons d core =>
      rw [htrim] at hstart
      cases hstart
      rfl

theorem Trimmed.append
    (ha : Trimmed a) (hb : Trimmed b) (hane : a ≠ []) (hbne : b ≠ []) (mid : List Char) :
    Trimmed (a ++ mid ++ b) := by
  constructor
  · rw [List.append_assoc, List.head?_append_of_ne_nil a hane]
    exact ha.head
  · rw [List.getLast?_append_of_ne_nil _ hbne]
    exact hb.last

end ContrastLint.Text
