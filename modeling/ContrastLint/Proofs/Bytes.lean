import ContrastLint.Proofs.Locating
import ContrastLint.Proofs.Outcome

/-!
# Texts as bytes

A program that reads the bytes of a text and slices the text at byte offsets
may do what it must not: read a byte beyond the end, slice inside a character,
subtract more than there is, or go round a loop without advancing.  Here each
of these is checked, and ends the program if it happens.

A program stands well at a byte offset if a character begins there, or the
text ends.  From such a place it reads the byte of an ASCII character, and it
can pass a character of several bytes byte by byte, because none of them looks
like an ASCII character.
-/

namespace ContrastLint

namespace Bytewise

/-- What a program must not do. -/
inductive Trap
  | index
  | slice
  | underflow
  | stalled
  deriving DecidableEq, Repr

/-- Why a program ends without a result. -/
inductive Halt (ε : Type)
  | trap (trap : Trap)
  | fault (fault : ε)
  deriving DecidableEq, Repr

abbrev Checked (ε : Type) := Except (Halt ε)

section Checks

variable {ε : Type}

def trap {α : Type} (t : Trap) : Checked ε α :=
  .error (.trap t)

def raise {α : Type} (fault : ε) : Checked ε α :=
  .error (.fault fault)

def entry {α : Type} (as : List α) (i : Nat) : Checked ε α :=
  match as[i]? with
  | some a => .ok a
  | none => trap .index

def subtract (a b : Nat) : Checked ε Nat :=
  if b ≤ a then .ok (a - b) else trap .underflow

def bytes (text : List Char) : List UInt8 :=
  text.flatMap String.utf8EncodeChar

def byteAt (text : List Char) (i : Nat) : Checked ε UInt8 :=
  entry (bytes text) i

/-- What follows a byte offset in a text. -/
def sliceFrom (text : List Char) (start : Nat) : Checked ε (List Char) :=
  match Text.skipBytes? 0 start text with
  | some (_, rest) => .ok rest
  | none => trap .slice

/-- What is between two byte offsets in a text. -/
def slice (text : List Char) (start stop : Nat) : Checked ε (List Char) :=
  match Text.skipBytes? 0 start text with
  | some (_, rest) =>
    match Text.skipBytes? 0 (stop - start) rest with
    | some (count, _) => if start ≤ stop then .ok (rest.take count) else trap .slice
    | none => trap .slice
  | none => trap .slice

/-- The bytes between two byte offsets in a text. -/
def sliceBytes (text : List Char) (start stop : Nat) : Checked ε (List UInt8) :=
  if start ≤ stop ∧ stop ≤ (bytes text).length then
    .ok (((bytes text).drop start).take (stop - start))
  else trap .slice

end Checks

/-- How a round of a loop ends: with a state and an offset for the next one, or
with the result of the loop. -/
inductive Round (σ ρ : Type)
  | next (state : σ) (offset : Nat)
  | done (result : ρ)

section Loops

variable {ε σ ρ : Type} {m : Type → Type} [Monad m] [MonadExcept (Halt ε) m]

/-- Goes round while an offset is below a limit.  Every round must advance it. -/
def loop (limit : Nat) (body : σ → Nat → m (Round σ ρ)) (finish : σ → m ρ) (s : σ) (i : Nat) :
    m ρ :=
  if i < limit then do
    match ← body s i with
    | .done result => return result
    | .next s' i' =>
      if i < i' then loop limit body finish s' i' else throw (.trap .stalled)
  else finish s
  termination_by limit - i

/-- A loop whose rounds begin with the byte at the offset. -/
def walk (text : List Char) (limit : Nat) (act : σ → Nat → UInt8 → Checked ε (Round σ ρ))
    (finish : σ → Checked ε ρ) (s : σ) (i : Nat) : Checked ε ρ :=
  loop limit (fun s i => byteAt text i >>= act s i) finish s i

end Loops

/-! ## Places between characters -/

/-- The byte offset `i` of a text is where the part `rest` at its end begins. -/
def At (text : List Char) (i : Nat) (rest : List Char) : Prop :=
  ∃ before, text = before ++ rest ∧ i = Text.byteLength before

section At

variable {text a b rest : List Char} {c : Char} {i : Nat}

theorem at_zero (text : List Char) : At text 0 text :=
  ⟨[], rfl, rfl⟩

theorem At.append (h : At text i (a ++ b)) : At text (i + Text.byteLength a) b := by
  obtain ⟨before, rfl, rfl⟩ := h
  exact ⟨before ++ a, by simp, by simp⟩

theorem At.next (h : At text i (c :: rest)) : At text (i + c.utf8Size) rest := by
  have hsingle : At text i ([c] ++ rest) := h
  simpa using hsingle.append

theorem At.byteLength (h : At text i rest) : Text.byteLength text = i + Text.byteLength rest := by
  obtain ⟨before, rfl, rfl⟩ := h
  simp

end At

/-! ## The bytes of a character -/

theorem bytes_append (a b : List Char) : bytes (a ++ b) = bytes a ++ bytes b :=
  List.flatMap_append

theorem length_bytes (text : List Char) : (bytes text).length = Text.byteLength text := by
  induction text with
  | nil => rfl
  | cons c text ih =>
      rw [bytes, List.flatMap_cons, List.length_append, String.length_utf8EncodeChar,
        Text.byteLength_cons]
      exact congrArg (c.utf8Size + ·) ih

/-- All bytes of a character that has several are beyond ASCII. -/
theorem le_of_mem_utf8EncodeChar
    {c : Char} (hwide : c.utf8Size ≠ 1) {b : UInt8} (hb : b ∈ String.utf8EncodeChar c) :
    128 ≤ b.toNat := by
  have hmask : ∀ (x y : UInt8), 128 ≤ y.toNat → 128 ≤ (x ||| y).toNat := by
    intro x y hy
    rw [UInt8.toNat_or]
    exact hy.trans Nat.right_le_or
  have hpos := c.utf8Size_pos
  have hle := c.utf8Size_le_four
  obtain hsize | hsize | hsize : c.utf8Size = 2 ∨ c.utf8Size = 3 ∨ c.utf8Size = 4 := by omega
  · rw [String.utf8EncodeChar_eq_cons_cons hsize] at hb
    simp only [List.mem_cons, List.not_mem_nil, or_false] at hb
    rcases hb with rfl | rfl <;> exact hmask _ _ (by decide)
  · rw [String.utf8EncodeChar_eq_cons_cons_cons hsize] at hb
    simp only [List.mem_cons, List.not_mem_nil, or_false] at hb
    rcases hb with rfl | rfl | rfl <;> exact hmask _ _ (by decide)
  · rw [String.utf8EncodeChar_eq_cons_cons_cons_cons hsize] at hb
    simp only [List.mem_cons, List.not_mem_nil, or_false] at hb
    rcases hb with rfl | rfl | rfl | rfl <;> exact hmask _ _ (by decide)

section Character

variable {ε : Type} {text rest : List Char} {c d : Char} {i : Nat}

theorem At.getElem?_bytes (h : At text i (c :: rest)) {j : Nat} (hj : j < c.utf8Size) :
    (bytes text)[i + j]? = (String.utf8EncodeChar c)[j]? := by
  obtain ⟨before, rfl, rfl⟩ := h
  have hlength := length_bytes before
  have hsize := String.length_utf8EncodeChar c
  rw [bytes_append, List.getElem?_append_right (by omega), hlength, Nat.add_sub_cancel_left,
    bytes, List.flatMap_cons, List.getElem?_append_left (by omega)]

theorem At.getElem?_of_ascii (h : At text i (c :: rest)) (hc : c.utf8Size = 1) :
    (bytes text)[i]? = some c.toUInt8 := by
  have hbyte := h.getElem?_bytes (j := 0) (by omega)
  rw [Nat.add_zero, String.utf8EncodeChar_eq_singleton hc] at hbyte
  exact hbyte

theorem byteAt_of_ascii (h : At text i (c :: rest)) (hc : c.utf8Size = 1) :
    (byteAt text i : Checked ε UInt8) = .ok c.toUInt8 := by
  rw [byteAt, entry, h.getElem?_of_ascii hc]

theorem exists_byteAt_of_wide (h : At text i (c :: rest)) (hc : c.utf8Size ≠ 1) {j : Nat}
    (hj : j < c.utf8Size) :
    ∃ b : UInt8, (byteAt text (i + j) : Checked ε UInt8) = .ok b ∧ 128 ≤ b.toNat := by
  have hlength : j < (String.utf8EncodeChar c).length := by
    rwa [String.length_utf8EncodeChar]
  have hbyte := h.getElem?_bytes hj
  rw [List.getElem?_eq_getElem hlength] at hbyte
  refine ⟨(String.utf8EncodeChar c)[j], ?_, le_of_mem_utf8EncodeChar hc (List.getElem_mem hlength)⟩
  rw [byteAt, entry, hbyte]

theorem toNat_toUInt8 (hc : c.utf8Size = 1) : c.toUInt8.toNat = c.toNat ∧ c.toNat < 128 := by
  have hle := Char.utf8Size_eq_one_iff.mp hc
  have hnat : c.toNat < 128 := by
    have hval : c.val.toNat ≤ 127 := hle
    exact Nat.lt_succ_of_le hval
  refine ⟨?_, hnat⟩
  have hmod : c.toUInt8.toNat = c.toNat % 256 := rfl
  omega

theorem toUInt8_inj (hc : c.utf8Size = 1) (hd : d.utf8Size = 1) :
    c.toUInt8 = d.toUInt8 ↔ c = d := by
  constructor
  · intro h
    have hnat := congrArg UInt8.toNat h
    rw [(toNat_toUInt8 hc).1, (toNat_toUInt8 hd).1] at hnat
    exact Char.toNat_inj.mp hnat
  · rintro rfl
    rfl

theorem ne_toUInt8_of_le {b : UInt8} (hb : 128 ≤ b.toNat) (hd : d.utf8Size = 1) :
    b ≠ d.toUInt8 := by
  rintro rfl
  have hnat := toNat_toUInt8 hd
  omega

end Character

/-! ## Slices -/

section Slice

variable {ε : Type} {text a b rest : List Char} {i : Nat}

theorem skipBytes?_of_at (h : At text i rest) :
    ∃ count, Text.skipBytes? 0 i text = some (count, rest) := by
  obtain ⟨before, rfl, rfl⟩ := h
  exact ⟨_, Text.skipBytes?_append 0 before rest⟩

theorem sliceFrom_of_at (h : At text i rest) :
    (sliceFrom text i : Checked ε (List Char)) = .ok rest := by
  obtain ⟨count, hskip⟩ := skipBytes?_of_at h
  rw [sliceFrom, hskip]

theorem slice_of_at (h : At text i (a ++ b)) :
    (slice text i (i + Text.byteLength a) : Checked ε (List Char)) = .ok a := by
  obtain ⟨count, hskip⟩ := skipBytes?_of_at h
  have hslice := Text.skipBytes?_append 0 a b
  rw [slice, hskip]
  simp only [Nat.add_sub_cancel_left, hslice, Nat.le_add_right, if_true, Nat.zero_add,
    List.take_left]

example : (slice "é".toList 0 1 : Checked Empty (List Char)) = .error (.trap .slice) := rfl

theorem sliceBytes_of_at (h : At text i (a ++ b)) :
    (sliceBytes text i (i + Text.byteLength a) : Checked ε (List UInt8)) = .ok (bytes a) := by
  have hlength := h.byteLength
  obtain ⟨before, rfl, rfl⟩ := h
  rw [Text.byteLength_append a b] at hlength
  have hbounds : Text.byteLength before ≤ Text.byteLength before + Text.byteLength a ∧
      Text.byteLength before + Text.byteLength a ≤ (bytes (before ++ (a ++ b))).length := by
    rw [length_bytes]
    omega
  rw [sliceBytes, if_pos hbounds, bytes_append, bytes_append, Nat.add_sub_cancel_left,
    List.drop_left' (length_bytes before), List.take_left' (length_bytes a)]

theorem subtract_of_le {n m : Nat} (h : m ≤ n) : (subtract n m : Checked ε Nat) = .ok (n - m) :=
  if_pos h

end Slice

/-! ## Loops over bytes -/

section Walk

variable {ε σ ρ : Type} {text rest : List Char} {limit i : Nat}
  {act : σ → Nat → UInt8 → Checked ε (Round σ ρ)} {finish : σ → Checked ε ρ} {s s' : σ}
  {b : UInt8} {c : Char}

theorem walk_of_le (h : limit ≤ i) : walk text limit act finish s i = finish s := by
  rw [walk, loop, if_neg (by omega)]

theorem walk_of_next
    {i' : Nat} (hi : i < limit) (hb : (byteAt text i : Checked ε UInt8) = .ok b)
    (hact : act s i b = .ok (.next s' i')) (hlt : i < i') :
    walk text limit act finish s i = walk text limit act finish s' i' := by
  rw [walk, loop, if_pos hi, hb, bind_ok, hact, bind_ok]
  simp only [if_pos hlt]
  rfl

theorem walk_of_done
    {result : ρ} (hi : i < limit) (hb : (byteAt text i : Checked ε UInt8) = .ok b)
    (hact : act s i b = .ok (.done result)) :
    walk text limit act finish s i = .ok result := by
  rw [walk, loop, if_pos hi, hb, bind_ok, hact, bind_ok]
  rfl

theorem walk_of_error
    {halt : Halt ε} (hi : i < limit) (hb : (byteAt text i : Checked ε UInt8) = .ok b)
    (hact : act s i b = .error halt) :
    walk text limit act finish s i = .error halt := by
  rw [walk, loop, if_pos hi, hb, bind_ok, hact, bind_error]

theorem walk_bytes
    {n : Nat} (hlimit : i + n ≤ limit)
    (hact : ∀ j < n, ∃ b, (byteAt text (i + j) : Checked ε UInt8) = .ok b ∧
      act s (i + j) b = .ok (.next s (i + j + 1))) :
    walk text limit act finish s i = walk text limit act finish s (i + n) := by
  induction n with
  | zero => rfl
  | succ n ih =>
      obtain ⟨b, hb, hnext⟩ := hact n (by omega)
      rw [ih (by omega) fun j hj => hact j (by omega),
        walk_of_next (by omega) hb hnext (by omega), Nat.add_assoc]

/-- A loop that goes on at every byte beyond ASCII passes the rest of a character. -/
theorem walk_inside
    (h : At text i (c :: rest)) (hc : c.utf8Size ≠ 1) (hlimit : i + c.utf8Size ≤ limit)
    (hact : ∀ j b, 128 ≤ b.toNat → act s j b = .ok (.next s (j + 1))) {j : Nat}
    (hj : j ≤ c.utf8Size) :
    walk text limit act finish s (i + j) = walk text limit act finish s (i + c.utf8Size) := by
  have hrest : i + c.utf8Size = i + j + (c.utf8Size - j) := by omega
  rw [hrest]
  apply walk_bytes (by omega)
  intro k hk
  obtain ⟨b, hb, hwide⟩ := exists_byteAt_of_wide (ε := ε) h hc (j := j + k) (by omega)
  rw [← Nat.add_assoc] at hb
  exact ⟨b, hb, hact _ b hwide⟩

/-- A loop passes a character if it goes on at its byte, or at any byte beyond
ASCII.  Only an ASCII character changes the state. -/
theorem walk_char
    (h : At text i (c :: rest)) (hlimit : i + c.utf8Size ≤ limit)
    (hwide : ∀ j b, 128 ≤ b.toNat → act s j b = .ok (.next s (j + 1)))
    (hstays : c.utf8Size ≠ 1 → s' = s)
    (hascii : c.utf8Size = 1 → act s i c.toUInt8 = .ok (.next s' (i + 1))) :
    walk text limit act finish s i = walk text limit act finish s' (i + c.utf8Size) := by
  by_cases hc : c.utf8Size = 1
  · rw [hc] at hlimit ⊢
    exact walk_of_next (by omega) (byteAt_of_ascii h hc) (hascii hc) (by omega)
  · rw [hstays hc]
    exact walk_inside h hc hlimit hwide (Nat.zero_le _)

/-- A jump over two bytes, of which the first is ASCII, may lead inside a
character.  The loop then passes the rest of it. -/
theorem walk_jump
    {d : Char} (h : At text i (d :: c :: rest)) (hd : d.utf8Size = 1)
    (hlimit : i + 1 + c.utf8Size ≤ limit)
    (hwide : ∀ j b, 128 ≤ b.toNat → act s j b = .ok (.next s (j + 1)))
    (hjump : act s i d.toUInt8 = .ok (.next s (i + 2))) :
    walk text limit act finish s i = walk text limit act finish s (i + 1 + c.utf8Size) := by
  have hpos := c.utf8Size_pos
  have hafter : At text (i + 1) (c :: rest) := by
    simpa [hd] using h.next
  rw [walk_of_next (by omega) (byteAt_of_ascii h hd) hjump (by omega)]
  by_cases hc : c.utf8Size = 1
  · rw [hc]
  · exact walk_inside hafter hc hlimit hwide (j := 1) (by omega)

end Walk

end Bytewise

end ContrastLint
