import ContrastLint.Proofs.Outcome
import ContrastLint.Proofs.Quoting
import ContrastLint.Text.CharClass

/-!
# Digits in base sixteen

A digit is read in either case and written in lower case.  What is read from
digits is written with the same digits in lower case, and a byte is determined
by the two it is written with.
-/

namespace ContrastLint.Text

def hexAlphabet : List Char := "0123456789abcdefABCDEF".toList

variable {d : Char} {ds : List Char} {m n : Nat} {ns : List Nat}

theorem mem_of_le {first last : Char} (hfirst : first ≤ d) (hlast : d ≤ last) :
    d ∈ (List.range' first.toNat (last.toNat - first.toNat + 1)).map Char.ofNat := by
  rw [Char.le_def, UInt32.le_iff_toNat_le, Char.toNat_val, Char.toNat_val] at hfirst hlast
  exact List.mem_map.mpr ⟨d.toNat, List.mem_range'_1.mpr (by omega), Char.ofNat_toNat d⟩

theorem mem_hexAlphabet_of_hexValue? (h : hexValue? d = some n) : d ∈ hexAlphabet := by
  -- The alphabet consists of the three ranges of characters that are read as digits.
  have hblocks :
      (List.range' 48 10 ++ List.range' 97 6 ++ List.range' 65 6).map Char.ofNat =
        hexAlphabet := by
    decide
  rw [← hblocks, List.map_append, List.map_append, List.mem_append, List.mem_append]
  unfold hexValue? at h
  split_ifs at h with hdecimal hlower hupper
  · exact .inl (.inl (mem_of_le hdecimal.1 hdecimal.2))
  · exact .inl (.inr (mem_of_le hlower.1 hlower.2))
  · exact .inr (mem_of_le hupper.1 hupper.2)

theorem exists_hexValue?_of_mem (h : d ∈ hexAlphabet) :
    ∃ n < 16, hexValue? d = some n ∧ d.toLower = n.digitChar := by
  have hall : hexAlphabet.all
      (fun d => ∃ n : Nat, n < 16 ∧ hexValue? d = some n ∧ d.toLower = n.digitChar) = true := by
    decide
  simpa using List.all_eq_true.mp hall d h

theorem isWhite_of_mem (h : d ∈ hexAlphabet) : isWhite d = false := by
  have hall : hexAlphabet.all (isWhite · == false) = true := by decide
  simpa using List.all_eq_true.mp hall d h

theorem utf8Size_of_mem (h : d ∈ hexAlphabet) : d.utf8Size = 1 := by
  have hall : hexAlphabet.all (·.utf8Size == 1) = true := by decide
  simpa using List.all_eq_true.mp hall d h

theorem digitChar_mem_hexAlphabet :
    ∀ n < 16, n.digitChar ∈ hexAlphabet ∧ n.digitChar.toLower = n.digitChar := by
  decide

theorem digitChar_inj (hm : m < 16) (hn : n < 16) (h : m.digitChar = n.digitChar) : m = n := by
  have hall : ∀ m < 16, ∀ n < 16, m.digitChar = n.digitChar → m = n := by decide
  exact hall m hm n hn h

/-- In lower case, a digit is the one that its value is written with. -/
theorem hexValue?_eq_some_iff :
    hexValue? d = some n ↔ d ∈ hexAlphabet ∧ n < 16 ∧ d.toLower = n.digitChar := by
  constructor
  · intro h
    have hd := mem_hexAlphabet_of_hexValue? h
    obtain ⟨m, hm, hvalue, hlower⟩ := exists_hexValue?_of_mem hd
    cases hvalue.symm.trans h
    exact ⟨hd, hm, hlower⟩
  · rintro ⟨hd, hn, hlower⟩
    obtain ⟨m, hm, hvalue, hlower'⟩ := exists_hexValue?_of_mem hd
    rw [hvalue, digitChar_inj hm hn (hlower'.symm.trans hlower)]

theorem mapM_hexValue?_eq_some_iff :
    ds.mapM hexValue? = some ns ↔
      (∀ d ∈ ds, d ∈ hexAlphabet) ∧ (∀ n ∈ ns, n < 16) ∧
        ds.map Char.toLower = ns.map Nat.digitChar := by
  rw [mapM_eq_some_iff]
  induction ds generalizing ns with
  | nil => cases ns <;> simp
  | cons d ds ih =>
      cases ns with
      | nil => simp
      | cons n ns =>
          rw [List.forall₂_cons, ih, hexValue?_eq_some_iff]
          simp only [List.forall_mem_cons, List.map_cons, List.cons.injEq]
          tauto

theorem length_eq_of_mapM (h : ds.mapM hexValue? = some ns) : ds.length = ns.length :=
  (mapM_eq_some_iff.mp h).length_eq

theorem byteLength_of_digits (h : ∀ d ∈ ds, d ∈ hexAlphabet) : byteLength ds = ds.length := by
  induction ds with
  | nil => rfl
  | cons d ds ih =>
      obtain ⟨hd, hds⟩ := List.forall_mem_cons.mp h
      rw [byteLength_cons, utf8Size_of_mem hd, ih hds, List.length_cons, Nat.add_comm]

theorem exists_mapM_hexValue? (h : ∀ d ∈ ds, d ∈ hexAlphabet) :
    ∃ ns, ds.mapM hexValue? = some ns := by
  induction ds with
  | nil => exact ⟨[], rfl⟩
  | cons d ds ih =>
      obtain ⟨hd, hds⟩ := List.forall_mem_cons.mp h
      obtain ⟨n, -, hn, -⟩ := exists_hexValue?_of_mem hd
      obtain ⟨ns, hns⟩ := ih hds
      exact ⟨n :: ns, by simp [List.mapM_cons, hn, hns]⟩

theorem forall_mem_hexByte (byte : UInt8) :
    ∀ d ∈ hexByte byte, d ∈ hexAlphabet ∧ d.toLower = d := by
  have hbyte := byte.toNat_lt
  rw [hexByte, List.forall_mem_cons, List.forall_mem_singleton]
  exact ⟨digitChar_mem_hexAlphabet _ (by omega), digitChar_mem_hexAlphabet _ (by omega)⟩

theorem ofNat_eq_iff {byte : UInt8} (hm : m < 16) (hn : n < 16) :
    .ofNat (16 * m + n) = byte ↔ hexByte byte = [m.digitChar, n.digitChar] := by
  have hbyte := byte.toNat_lt
  rw [hexByte, List.cons.injEq, List.cons.injEq, ← UInt8.toNat_inj, UInt8.toNat_ofNat']
  constructor
  · intro h
    have hhigh : byte.toNat / 16 = m := by omega
    have hlow : byte.toNat % 16 = n := by omega
    rw [hhigh, hlow]
    exact ⟨rfl, rfl, rfl⟩
  · rintro ⟨hhigh, hlow, -⟩
    have hm' := digitChar_inj (by omega) hm hhigh
    have hn' := digitChar_inj (by omega) hn hlow
    omega

end ContrastLint.Text
