import ContrastLint.Color.Rgb
import ContrastLint.Proofs.Bytes
import ContrastLint.Proofs.Evaluation
import ContrastLint.Proofs.HexDigits
import ContrastLint.Proofs.Trim
import Mathlib.Computability.RegularExpressions

/-!
# Literals and their colours

A literal colour may be tested against a regular expression first, and its
channels be sliced from the digits and converted one by one afterwards.  Here
the slices and the conversions are checked.  None of them fails behind the test,
and what comes out is the one colour whose own digits are those of the literal.
-/

namespace ContrastLint

/-! ## Literals -/

namespace Rgb

def double (digits : List Char) : List Char :=
  digits.flatMap fun d => [d, d]

/-- The digits are those of the colour, in the long or in the short form. -/
def IsWritten (c : Rgb) (digits : List Char) : Prop :=
  c.toHex.toList = '#' :: digits.map Char.toLower ∨
    digits.length = 3 ∧ c.toHex.toList = '#' :: double (digits.map Char.toLower)

/-- The value has the digits of the colour, nothing before them but white space and at
most one number sign, and only white space after them. -/
def Spells (value : String) (c : Rgb) : Prop :=
  ∃ front sign digits back, value.toList = front ++ (sign ++ digits) ++ back ∧
    Text.White front ∧ Text.White back ∧ (sign = [] ∨ sign = ['#']) ∧
    (∀ d ∈ digits, d ∈ Text.hexAlphabet) ∧ c.IsWritten digits

/-- What is left of a value without white space around it and one number sign. -/
def literal (value : String) : List Char :=
  dropNumberSign (Text.trim value.toList)

/-- The digits of a literal in lower case, those of the short form twice. -/
def expanded (value : String) : List Char :=
  let digits := (literal value).map Char.toLower
  if digits.length = 3 then double digits else digits

/-! ### Number signs -/

section Signs

variable {text sign ds : List Char}

theorem ne_numberSign_of_mem {d : Char} (h : d ∈ Text.hexAlphabet) : d ≠ '#' := by
  rintro rfl
  revert h
  decide

theorem dropNumberSign_append
    (hsign : sign = [] ∨ sign = ['#']) (h : ∀ d ∈ ds, d ∈ Text.hexAlphabet) :
    dropNumberSign (sign ++ ds) = ds := by
  rcases hsign with rfl | rfl
  · rw [List.nil_append]
    fun_cases dropNumberSign ds with
    | case1 rest => exact absurd rfl (ne_numberSign_of_mem (h '#' List.mem_cons_self))
    | case2 => rfl
  · rfl

theorem exists_sign_append (text : List Char) :
    ∃ sign, (sign = [] ∨ sign = ['#']) ∧ text = sign ++ dropNumberSign text := by
  fun_cases dropNumberSign text with
  | case1 rest => exact ⟨['#'], .inr rfl, rfl⟩
  | case2 => exact ⟨[], .inl rfl, rfl⟩

/-- All number signs before a text are dropped where at most one is allowed. -/
theorem dropWhile_eq_dropNumberSign (h : ∀ d ∈ dropNumberSign text, d ∈ Text.hexAlphabet) :
    text.dropWhile (· == '#') = dropNumberSign text := by
  -- Behind the first number sign there are digits only, so nothing more is dropped.
  have hkeep : (dropNumberSign text).dropWhile (· == '#') = dropNumberSign text := by
    cases hdigits : dropNumberSign text with
    | nil => rfl
    | cons d ds =>
        have hd := ne_numberSign_of_mem (h d (by simp [hdigits]))
        simp [hd]
  obtain ⟨sign, rfl | rfl, htext⟩ := exists_sign_append text
  · conv_lhs => rw [htext]
    exact hkeep
  · conv_lhs => rw [htext]
    exact hkeep

end Signs

/-! ### Digits and colours -/

section Colors

variable {value : String} {c : Rgb} {ns : List Nat}

theorem toList_toHex (c : Rgb) :
    c.toHex.toList =
      '#' :: (Text.hexByte c.red ++ Text.hexByte c.green ++ Text.hexByte c.blue) := by
  rw [toHex, String.toList_ofList]
  rfl

theorem length_eq_six {ds : List Char} (h : c.toHex.toList = '#' :: ds) : ds.length = 6 := by
  rw [toList_toHex] at h
  exact congrArg List.length (List.tail_eq_of_cons_eq h).symm

theorem ofDigits?_double (r g b : Nat) : ofDigits? [r, r, g, g, b, b] = ofDigits? [r, g, b] := by
  have hsum (n : Nat) : 16 * n + n = 17 * n := by omega
  simp only [ofDigits?, hsum]

theorem ofDigits?_eq_some_iff_of_six {r₁ r₀ g₁ g₀ b₁ b₀ : Nat}
    (h : ∀ n ∈ [r₁, r₀, g₁, g₀, b₁, b₀], n < 16) :
    ofDigits? [r₁, r₀, g₁, g₀, b₁, b₀] = some c ↔
      c.toHex.toList = '#' :: [r₁, r₀, g₁, g₀, b₁, b₀].map Nat.digitChar := by
  simp only [List.forall_mem_cons] at h
  obtain ⟨hr₁, hr₀, hg₁, hg₀, hb₁, hb₀, -⟩ := h
  obtain ⟨red, green, blue⟩ := c
  rw [toList_toHex, ofDigits?, Option.some.injEq, mk.injEq, Text.ofNat_eq_iff hr₁ hr₀,
    Text.ofNat_eq_iff hg₁ hg₀, Text.ofNat_eq_iff hb₁ hb₀]
  simp [Text.hexByte, and_assoc]

theorem ofDigits?_eq_some_iff (h : ∀ n ∈ ns, n < 16) :
    ofDigits? ns = some c ↔
      c.toHex.toList = '#' :: ns.map Nat.digitChar ∨
        ns.length = 3 ∧ c.toHex.toList = '#' :: double (ns.map Nat.digitChar) := by
  fun_cases ofDigits? ns with
  | case1 r g b =>
      -- Three digits are too few for the long form, and twice each they are six.
      change ofDigits? [r, g, b] = some c ↔ _
      have hshort : c.toHex.toList ≠ '#' :: [r, g, b].map Nat.digitChar := by
        intro h
        exact absurd (length_eq_six h) (by simp)
      have hdouble : ∀ n ∈ [r, r, g, g, b, b], n < 16 := by
        simpa using h
      rw [← ofDigits?_double, ofDigits?_eq_some_iff_of_six hdouble, or_iff_right hshort]
      simp [double]
  | case2 r₁ r₀ g₁ g₀ b₁ b₀ =>
      refine (ofDigits?_eq_some_iff_of_six h).trans ?_
      simp
  | case3 _ hthree hsix =>
      have hshort : ns.length ≠ 3 := by
        intro hlength
        obtain ⟨r, g, b, rfl⟩ := List.length_eq_three.mp hlength
        exact hthree r g b rfl
      have hlong : ns.length ≠ 6 := by
        intro hlength
        match ns, hlength with
        | [r₁, r₀, g₁, g₀, b₁, b₀], _ => exact hsix r₁ r₀ g₁ g₀ b₁ b₀ rfl
      have hother : c.toHex.toList ≠ '#' :: ns.map Nat.digitChar := by
        intro h
        exact hlong (by simpa using length_eq_six h)
      simp [hshort, hother]

theorem resolve_eq_ok_iff_mapM :
    resolve value = .ok c ↔
      ∃ ns, (literal value).mapM Text.hexValue? = some ns ∧ ofDigits? ns = some c := by
  rw [resolve_eq_ok_iff]
  exact Option.bind_eq_some_iff

theorem literal_eq
    {front sign digits back : List Char} (htext : value.toList = front ++ (sign ++ digits) ++ back)
    (hfront : Text.White front) (hback : Text.White back) (hsign : sign = [] ∨ sign = ['#'])
    (hdigits : ∀ d ∈ digits, d ∈ Text.hexAlphabet) : literal value = digits := by
  have htrimmed : Text.Trimmed (sign ++ digits) := by
    apply Text.trimmed_of_forall
    rw [List.forall_mem_append]
    refine ⟨?_, fun d hd => Text.isWhite_of_mem (hdigits d hd)⟩
    rcases hsign with rfl | rfl
    · exact List.forall_mem_nil _
    · exact List.forall_mem_singleton.mpr rfl
  rw [literal, htext, Text.trim_eq hfront hback htrimmed, dropNumberSign_append hsign hdigits]

theorem spells_iff :
    Spells value c ↔ (∀ d ∈ literal value, d ∈ Text.hexAlphabet) ∧ c.IsWritten (literal value) := by
  constructor
  · rintro ⟨front, sign, digits, back, htext, hfront, hback, hsign, hdigits, hwritten⟩
    rw [literal_eq htext hfront hback hsign hdigits]
    exact ⟨hdigits, hwritten⟩
  · rintro ⟨hdigits, hwritten⟩
    obtain ⟨front, back, hfront, hback, htext⟩ := Text.exists_trim value.toList
    obtain ⟨sign, hsign, hcore⟩ := exists_sign_append (Text.trim value.toList)
    rw [hcore] at htext
    exact ⟨front, sign, literal value, back, htext, hfront, hback, hsign, hdigits, hwritten⟩

theorem spells_iff_of_mapM (h : (literal value).mapM Text.hexValue? = some ns) :
    Spells value c ↔ ofDigits? ns = some c := by
  obtain ⟨hdigits, hlt, hlower⟩ := Text.mapM_hexValue?_eq_some_iff.mp h
  rw [ofDigits?_eq_some_iff hlt, ← hlower, ← Text.length_eq_of_mapM h, spells_iff]
  exact and_iff_right hdigits

theorem resolve_eq_ok_iff_spells : resolve value = .ok c ↔ Spells value c := by
  rw [resolve_eq_ok_iff_mapM]
  constructor
  · rintro ⟨ns, hns, hcolor⟩
    exact (spells_iff_of_mapM hns).mpr hcolor
  · intro h
    obtain ⟨ns, hns⟩ := Text.exists_mapM_hexValue? (spells_iff.mp h).1
    exact ⟨ns, hns, (spells_iff_of_mapM hns).mp h⟩

theorem resolve_eq_error_iff :
    resolve value = .error ⟨value⟩ ↔ ∀ c, ¬Spells value c := by
  simp only [← resolve_eq_ok_iff_spells]
  cases h : resolve value with
  | ok c => simp
  | error e => simp [← value_of_resolve_eq_error h]

theorem IsWritten.length_eq {digits : List Char} (h : c.IsWritten digits) :
    digits.length = 3 ∨ digits.length = 6 := by
  rcases h with hlong | ⟨hshort, -⟩
  · exact .inr (by simpa using length_eq_six hlong)
  · exact .inl hshort

theorem Spells.toList_toHex (h : Spells value c) : c.toHex.toList = '#' :: expanded value := by
  rw [expanded, List.length_map]
  rcases (spells_iff.mp h).2 with hlong | ⟨hshort, hdouble⟩
  · have hlength : (literal value).length = 6 := by
      simpa using length_eq_six hlong
    rw [if_neg (by omega), hlong]
  · rw [if_pos hshort, hdouble]

theorem spells_toHex (c : Rgb) : Spells c.toHex c := by
  have hdigits : ∀ d ∈ Text.hexByte c.red ++ Text.hexByte c.green ++ Text.hexByte c.blue,
      d ∈ Text.hexAlphabet ∧ d.toLower = d := by
    simp only [List.forall_mem_append]
    exact ⟨⟨Text.forall_mem_hexByte _, Text.forall_mem_hexByte _⟩, Text.forall_mem_hexByte _⟩
  refine ⟨[], ['#'], _, [], ?_, Text.white_nil, Text.white_nil, .inr rfl,
    fun d hd => (hdigits d hd).1, .inl ?_⟩
  · rw [Rgb.toList_toHex, List.append_nil]
    rfl
  · rw [List.map_congr_left fun d hd => (hdigits d hd).2, List.map_id', Rgb.toList_toHex]

/-- Two literals stand for one colour if they are the same once they are expanded. -/
theorem Spells.eq_iff {other : String} {d : Rgb} (hc : Spells value c) (hd : Spells other d) :
    c = d ↔ expanded value = expanded other := by
  constructor
  · rintro rfl
    exact List.tail_eq_of_cons_eq (hc.toList_toHex.symm.trans hd.toList_toHex)
  · intro h
    have htext : c.toHex = d.toHex := by
      rw [← String.toList_inj, hc.toList_toHex, hd.toList_toHex, h]
    have hsame := resolve_eq_ok_iff_spells.mpr (spells_toHex c)
    rw [htext, resolve_eq_ok_iff_spells.mpr (spells_toHex d)] at hsame
    cases hsame
    rfl

end Colors

/-! ## A regular expression -/

def hexDigit : RegularExpression Char :=
  (Text.hexAlphabet.map .char).foldr (· + ·) 0

/-- Three or six digits and an optional number sign. -/
def pattern : RegularExpression Char :=
  (1 + .char '#') * (hexDigit ^ 3 + hexDigit ^ 6)

section Pattern

variable {text ds : List Char} {value : String} {n : Nat}

theorem rmatch_foldr_iff :
    ((ds.map RegularExpression.char).foldr (· + ·) 0).rmatch text = true ↔
      ∃ d ∈ ds, text = [d] := by
  induction ds with
  | nil => simp [RegularExpression.zero_rmatch]
  | cons d ds ih =>
      rw [List.map_cons, List.foldr_cons, RegularExpression.add_rmatch_iff,
        RegularExpression.char_rmatch_iff, ih]
      simp

theorem rmatch_hexDigit_pow_iff :
    (hexDigit ^ n).rmatch text = true ↔
      text.length = n ∧ ∀ d ∈ text, d ∈ Text.hexAlphabet := by
  induction n generalizing text with
  | zero =>
      change RegularExpression.rmatch 1 text = true ↔ _
      rw [RegularExpression.one_rmatch_iff, List.length_eq_zero_iff]
      exact ⟨by rintro rfl; simp, And.left⟩
  | succ n ih =>
      -- A power multiplies from the right, so the last digit is taken off.
      change (hexDigit ^ n * hexDigit).rmatch text = true ↔ _
      simp only [RegularExpression.mul_rmatch_iff, ih]
      constructor
      · rintro ⟨front, last, rfl, ⟨hlength, hfront⟩, hlast⟩
        obtain ⟨d, hd, rfl⟩ := rmatch_foldr_iff.mp hlast
        rw [List.length_append, List.length_singleton, List.forall_mem_append,
          List.forall_mem_singleton]
        exact ⟨by omega, hfront, hd⟩
      · rintro ⟨hlength, hdigits⟩
        obtain rfl | ⟨front, d, rfl⟩ := List.eq_nil_or_concat' text
        · contradiction
        · rw [List.forall_mem_append, List.forall_mem_singleton] at hdigits
          rw [List.length_append, List.length_singleton] at hlength
          exact ⟨front, [d], rfl, ⟨by omega, hdigits.1⟩,
            rmatch_foldr_iff.mpr ⟨d, hdigits.2, rfl⟩⟩

theorem rmatch_pattern_iff :
    pattern.rmatch text = true ↔
      ((dropNumberSign text).length = 3 ∨ (dropNumberSign text).length = 6) ∧
        ∀ d ∈ dropNumberSign text, d ∈ Text.hexAlphabet := by
  simp only [pattern, RegularExpression.mul_rmatch_iff, RegularExpression.add_rmatch_iff,
    RegularExpression.one_rmatch_iff, RegularExpression.char_rmatch_iff,
    rmatch_hexDigit_pow_iff, ← or_and_right]
  constructor
  · rintro ⟨sign, ds, rfl, hsign, hds⟩
    rwa [dropNumberSign_append hsign hds.2]
  · intro h
    obtain ⟨sign, hsign, htext⟩ := exists_sign_append text
    exact ⟨sign, dropNumberSign text, htext, hsign, h⟩

theorem Spells.rmatch_pattern {c : Rgb} (h : Spells value c) :
    pattern.rmatch (Text.trim value.toList) = true :=
  have ⟨hdigits, hwritten⟩ := spells_iff.mp h
  rmatch_pattern_iff.mpr ⟨hwritten.length_eq, hdigits⟩

end Pattern

end Rgb

/-! ## Slices and conversions -/

namespace Bytewise

/-- The byte with the given digits, before which a plus sign may stand. -/
def byteOf? (text : List Char) : Option UInt8 := do
  let digits := match text with
    | '+' :: rest => rest
    | _ => text
  let ns ← digits.mapM Text.hexValue?
  let n := ns.foldl (fun n digit => 16 * n + digit) 0
  if ns ≠ [] ∧ n < 256 then some (.ofNat n) else none

def channel (value : String) (digits : List Char) (i : Nat) : Checked UnsupportedColor UInt8 := do
  match byteOf? (← slice digits i (i + 2)) with
  | some byte => return byte
  | none => raise ⟨value⟩

def channels (value : String) (digits : List Char) : Checked UnsupportedColor Rgb := do
  let red ← channel value digits 0
  let green ← channel value digits 2
  let blue ← channel value digits 4
  return ⟨red, green, blue⟩

/-- Reads a literal colour with every slice and every conversion checked. -/
def resolve (value : String) : Checked UnsupportedColor Rgb :=
  let text := Text.trim value.toList
  if Rgb.pattern.rmatch text then
    let digits := text.dropWhile (· == '#')
    channels value (if (bytes digits).length = 3 then Rgb.double digits else digits)
  else raise ⟨value⟩

section Channels

variable {value : String} {a b : Char} {ds : List Char} {m n : Nat}

theorem byteOf?_pair (ha : Text.hexValue? a = some m) (hb : Text.hexValue? b = some n) :
    byteOf? [a, b] = some (.ofNat (16 * m + n)) := by
  have hplus : a ≠ '+' := by
    rintro rfl
    contradiction
  have hm := (Text.hexValue?_eq_some_iff.mp ha).2.1
  have hn := (Text.hexValue?_eq_some_iff.mp hb).2.1
  have hlt : 16 * m + n < 256 := by omega
  simp [byteOf?, hplus, ha, hb, hlt]

theorem slice_of_digits
    (before after : List Char) (h : ∀ d ∈ before ++ ([a, b] ++ after), d ∈ Text.hexAlphabet) :
    (slice (before ++ ([a, b] ++ after)) before.length (before.length + 2) :
      Checked UnsupportedColor (List Char)) = .ok [a, b] := by
  simp only [List.forall_mem_append] at h
  have hstart := Text.byteLength_of_digits h.1
  have hpair := Text.byteLength_of_digits h.2.1
  have hslice := slice_of_at (ε := UnsupportedColor) (a := [a, b]) (b := after)
    ⟨before, rfl, rfl⟩
  rw [hstart, hpair] at hslice
  exact hslice

theorem channel_of_digits
    (value : String) (before after : List Char)
    (h : ∀ d ∈ before ++ ([a, b] ++ after), d ∈ Text.hexAlphabet)
    (ha : Text.hexValue? a = some m) (hb : Text.hexValue? b = some n) :
    channel value (before ++ ([a, b] ++ after)) before.length = .ok (.ofNat (16 * m + n)) := by
  rw [channel, slice_of_digits before after h, bind_ok, byteOf?_pair ha hb]
  rfl

theorem channels_of_mapM {r₁ r₀ g₁ g₀ b₁ b₀ : Nat}
    (h : ds.mapM Text.hexValue? = some [r₁, r₀, g₁, g₀, b₁, b₀]) :
    channels value ds =
      .ok ⟨.ofNat (16 * r₁ + r₀), .ofNat (16 * g₁ + g₀), .ofNat (16 * b₁ + b₀)⟩ := by
  have hdigits := (Text.mapM_hexValue?_eq_some_iff.mp h).1
  rcases mapM_eq_some_iff.mp h with
    _ | ⟨hr₁, _ | ⟨hr₀, _ | ⟨hg₁, _ | ⟨hg₀, _ | ⟨hb₁, _ | ⟨hb₀, _ | _⟩⟩⟩⟩⟩⟩
  have hred := channel_of_digits value [] [_, _, _, _] hdigits hr₁ hr₀
  have hgreen := channel_of_digits value [_, _] [_, _] hdigits hg₁ hg₀
  have hblue := channel_of_digits value [_, _, _, _] [] hdigits hb₁ hb₀
  simp only [List.nil_append, List.cons_append, List.length_nil, List.length_cons]
    at hred hgreen hblue
  rw [channels, hred, bind_ok, hgreen, bind_ok, hblue, bind_ok]
  rfl

theorem mapM_double {ns : List Nat} (h : ds.mapM Text.hexValue? = some ns) :
    (Rgb.double ds).mapM Text.hexValue? = some (ns.flatMap fun n => [n, n]) := by
  rw [mapM_eq_some_iff] at h ⊢
  induction h with
  | nil => exact .nil
  | cons hd _ ih => exact .cons hd (.cons hd ih)

/-- Behind the test no slice and no conversion fails. -/
theorem exists_resolve_of_rmatch
    (h : Rgb.pattern.rmatch (Text.trim value.toList) = true) :
    ∃ c, Rgb.Spells value c ∧ resolve value = .ok c := by
  obtain ⟨hlength, hdigits⟩ := Rgb.rmatch_pattern_iff.mp h
  obtain ⟨ns, hns⟩ := Text.exists_mapM_hexValue? hdigits
  have hsame := Text.length_eq_of_mapM hns
  rw [resolve]
  simp only [if_pos h, Rgb.dropWhile_eq_dropNumberSign hdigits, length_bytes,
    Text.byteLength_of_digits hdigits]
  rcases hlength with hshort | hlong
  · obtain ⟨r, g, b, rfl⟩ := List.length_eq_three.mp (hsame.symm.trans hshort)
    rw [if_pos hshort, channels_of_mapM (mapM_double hns)]
    exact ⟨_, (Rgb.spells_iff_of_mapM hns).mpr (Rgb.ofDigits?_double r g b).symm, rfl⟩
  · rw [if_neg (by omega)]
    match ns, hsame.symm.trans hlong with
    | [r₁, r₀, g₁, g₀, b₁, b₀], _ =>
        rw [channels_of_mapM hns]
        exact ⟨_, (Rgb.spells_iff_of_mapM hns).mpr rfl, rfl⟩

theorem resolve_eq (value : String) : resolve value = (Rgb.resolve value).mapError .fault := by
  by_cases h : Rgb.pattern.rmatch (Text.trim value.toList) = true
  · obtain ⟨c, hspells, hresolve⟩ := exists_resolve_of_rmatch h
    rw [hresolve, Rgb.resolve_eq_ok_iff_spells.mpr hspells]
    rfl
  · have hnone : ∀ c, ¬Rgb.Spells value c := fun c hspells => h hspells.rmatch_pattern
    rw [Rgb.resolve_eq_error_iff.mpr hnone, resolve]
    exact if_neg h

end Channels

end Bytewise

/-- A value is the colour whose digits it spells.  If it spells none it is unsupported,
and once it has passed the test nothing fails.  Literals are the same colour if they are
the same when they are expanded. -/
theorem Rgb.resolve_spelling (value : String) :
    (∀ c, resolve value = .ok c ↔ Spells value c) ∧
      (resolve value = .error ⟨value⟩ ↔ ∀ c, ¬Spells value c) ∧
      Bytewise.resolve value = (resolve value).mapError .fault ∧
      (pattern.rmatch (Text.trim value.toList) = true ↔
        ∃ c, Bytewise.resolve value = .ok c) ∧
      (∀ c : Rgb, resolve c.toHex = .ok c) ∧
      ∀ other c d, resolve value = .ok c → resolve other = .ok d →
        (c = d ↔ expanded value = expanded other) := by
  refine ⟨fun c => resolve_eq_ok_iff_spells, resolve_eq_error_iff, Bytewise.resolve_eq value,
    ⟨?passes, ?passed⟩, fun c => resolve_eq_ok_iff_spells.mpr (spells_toHex c), ?same⟩
  case passes =>
    intro h
    obtain ⟨c, -, hresolve⟩ := Bytewise.exists_resolve_of_rmatch h
    exact ⟨c, hresolve⟩
  case passed =>
    rintro ⟨c, h⟩
    rw [Bytewise.resolve] at h
    by_contra hfails
    rw [if_neg hfails] at h
    contradiction
  case same =>
    intro other c d hvalue hother
    exact (resolve_eq_ok_iff_spells.mp hvalue).eq_iff (resolve_eq_ok_iff_spells.mp hother)

/-- The case of a short literal with blanks around it, of the long one without a number
sign, and of a value with two number signs. -/
theorem Rgb.resolve_spelling_short :
    resolve "\t#AbC\n" = .ok ⟨0xAA, 0xBB, 0xCC⟩ ∧ resolve "aabbCC" = .ok ⟨0xAA, 0xBB, 0xCC⟩ ∧
      expanded "\t#AbC\n" = expanded "aabbCC" ∧
      Bytewise.resolve "\t#AbC\n" = .ok ⟨0xAA, 0xBB, 0xCC⟩ ∧
      ∀ c, ¬Spells "##fff" c := by
  have hshort : resolve "\t#AbC\n" = .ok ⟨0xAA, 0xBB, 0xCC⟩ := by rfl
  have hlong : resolve "aabbCC" = .ok ⟨0xAA, 0xBB, 0xCC⟩ := by rfl
  obtain ⟨-, -, hchecked, -, -, hsame⟩ := resolve_spelling "\t#AbC\n"
  refine ⟨hshort, hlong, (hsame _ _ _ hshort hlong).mp rfl, ?_, ?_⟩
  · rw [hchecked, hshort]
    rfl
  · exact (resolve_spelling "##fff").2.1.mp rfl

end ContrastLint
