import ContrastLint.Proofs.Cursor

/-!
# Pieces of a stylesheet

A stylesheet is a sequence of pieces that follow one another without a gap.
Every piece is a text without a stop and what ends it, which may be a whole
block.  `Partition` says that a list of pieces makes up a text; it speaks of
characters alone and scans nothing twice.

Not every text is made up of pieces.  `Stuck` names what can go wrong, and
nothing else can.
-/

namespace ContrastLint

/-- What ends a piece. -/
inductive Ending
  | semicolon
  | block (body : List Char)
  /-- The enclosing text ends. -/
  | last
  deriving DecidableEq, Repr

namespace Ending

def source : Ending → List Char
  | .semicolon => [';']
  | .block body => '{' :: (body ++ ['}'])
  | .last => []

def body? : Ending → Option (List Char)
  | .block body => some body
  | _ => none

theorem body?_eq_some_iff {ending : Ending} {body : List Char} :
    ending.body? = some body ↔ ending = .block body := by
  cases ending <;> simp [body?]

/-- Whether a piece may end so where `depth` parentheses are open. -/
def Fits : Ending → Nat → Prop
  | .semicolon, depth => depth = 0
  | .block body, _ => Cursor.start.readBlock body = some .start
  | .last, _ => True

end Ending

structure Piece where
  offset : Nat
  text : List Char
  ending : Ending
  deriving DecidableEq, Repr

namespace Piece

def source (p : Piece) : List Char :=
  p.text ++ p.ending.source

/-- The first byte of a piece that is no blank. -/
def start (p : Piece) : Nat :=
  p.offset + Text.byteLength (p.text.takeWhile Text.isAsciiWhite)

def bodyOffset (p : Piece) : Nat :=
  p.offset + Text.byteLength p.text + 1

/-- The text of a piece has no stop, and its ending fits. -/
def Proper (p : Piece) : Prop :=
  ∃ depth, Cursor.start.readText p.text = some ⟨.outside, depth⟩ ∧ p.ending.Fits depth

end Piece

/-- The pieces make up a text that starts at the byte `offset`. -/
inductive Partition : Nat → List Char → List Piece → Prop
  | last {offset : Nat} {text : List Char}
      (hproper : Piece.Proper ⟨offset, text, .last⟩) :
      Partition offset text [⟨offset, text, .last⟩]
  | semicolon {offset : Nat} {text rest : List Char} {pieces : List Piece}
      (hproper : Piece.Proper ⟨offset, text, .semicolon⟩)
      (hrest : Partition (offset + Text.byteLength text + 1) rest pieces) :
      Partition offset (text ++ ';' :: rest) (⟨offset, text, .semicolon⟩ :: pieces)
  | block {offset : Nat} {text body rest : List Char} {pieces : List Piece}
      (hproper : Piece.Proper ⟨offset, text, .block body⟩)
      (hrest : Partition (offset + Text.byteLength text + 1 + Text.byteLength body + 1)
        rest pieces) :
      Partition offset (text ++ '{' :: (body ++ '}' :: rest))
        (⟨offset, text, .block body⟩ :: pieces)

namespace Piece

theorem Proper.after_text {p : Piece} (h : p.Proper) :
    Quoting.outside.after p.text = .outside := by
  rcases h with ⟨depth, hread, -⟩
  exact (Cursor.quoting_of_readText hread).symm

theorem Proper.after_body
    {offset : Nat} {text body : List Char} (h : Proper ⟨offset, text, .block body⟩) :
    Quoting.outside.after body = .outside := by
  rcases h with ⟨depth, -, hfits⟩
  exact (Cursor.quoting_of_readBlock hfits).symm

end Piece

namespace Quoting

@[simp] theorem outside_next_semicolon : outside.next ';' = .outside := rfl

@[simp] theorem outside_next_openBrace : outside.next '{' = .outside := rfl

@[simp] theorem outside_next_closeBrace : outside.next '}' = .outside := rfl

end Quoting

theorem Partition.after_eq_outside
    {offset : Nat} {text : List Char} {pieces : List Piece} (h : Partition offset text pieces) :
    Quoting.outside.after text = .outside := by
  induction h with
  | last hproper => exact hproper.after_text
  | semicolon hproper _ ih =>
      have htext := hproper.after_text
      simp_all
  | block hproper _ ih =>
      have htext := hproper.after_text
      have hbody := hproper.after_body
      simp_all

/-- Why a text is not made up of pieces: a string is not closed, a closing
brace has no partner, or a block has no end. -/
inductive Stuck : Nat → List Char → Prop
  | string {offset : Nat} {text : List Char} {k : Cursor}
      (hread : Cursor.start.readText text = some k) (hopen : k.quoting ≠ .outside) :
      Stuck offset text
  | close {offset depth : Nat} {text rest : List Char}
      (hread : Cursor.start.readText text = some ⟨.outside, depth⟩) :
      Stuck offset (text ++ '}' :: rest)
  | block {offset depth : Nat} {text body : List Char} {k : Cursor}
      (hread : Cursor.start.readText text = some ⟨.outside, depth⟩)
      (hbody : Cursor.start.readBlock body = some k) :
      Stuck offset (text ++ '{' :: body)
  | afterSemicolon {offset : Nat} {text rest : List Char}
      (hproper : Piece.Proper ⟨offset, text, .semicolon⟩)
      (hrest : Stuck (offset + Text.byteLength text + 1) rest) :
      Stuck offset (text ++ ';' :: rest)
  | afterBlock {offset : Nat} {text body rest : List Char}
      (hproper : Piece.Proper ⟨offset, text, .block body⟩)
      (hrest : Stuck (offset + Text.byteLength text + 1 + Text.byteLength body + 1) rest) :
      Stuck offset (text ++ '{' :: (body ++ '}' :: rest))

/-- Every text is made up of pieces or is stuck. -/
theorem exists_partition_or_stuck (offset : Nat) (text : List Char) :
    (∃ pieces, Partition offset text pieces) ∨ Stuck offset text := by
  -- What follows a piece is no part of the text by structure, only shorter.
  induction hlength : text.length using Nat.strongRecOn generalizing offset text with
  | ind n ih =>
      obtain ⟨a, b, ⟨s, depth⟩, rfl, hread, hstops⟩ := Cursor.exists_readText .start text
      cases b with
      | nil =>
          rw [List.append_nil]
          by_cases hs : s = .outside
          · cases hs
            exact .inl ⟨_, .last ⟨depth, hread, trivial⟩⟩
          · exact .inr (.string hread hs)
      | cons c b =>
          rcases (hstops c rfl).cases with ⟨hs, hc⟩
          cases hs
          rcases hc with rfl | rfl | ⟨rfl, hdepth⟩
          · obtain ⟨body, rest, k, rfl, hbody, hends⟩ := Cursor.exists_readBlock .start b
            cases rest with
            | nil =>
                rw [List.append_nil]
                exact .inr (.block hread hbody)
            | cons d rest =>
                rcases (hends d rfl).cases with ⟨rfl, rfl⟩
                have hproper : Piece.Proper ⟨offset, a, .block body⟩ := ⟨depth, hread, hbody⟩
                have hshorter : rest.length < n := by
                  simp [← hlength]
                  omega
                rcases ih _ hshorter _ rest rfl with ⟨pieces, hpieces⟩ | hstuck
                · exact .inl ⟨_, .block hproper hpieces⟩
                · exact .inr (.afterBlock hproper hstuck)
          · exact .inr (.close hread)
          · have hproper : Piece.Proper ⟨offset, a, .semicolon⟩ := ⟨depth, hread, hdepth⟩
            have hshorter : b.length < n := by
              simp [← hlength]
              omega
            rcases ih _ hshorter _ b rfl with ⟨pieces, hpieces⟩ | hstuck
            · exact .inl ⟨_, .semicolon hproper hpieces⟩
            · exact .inr (.afterSemicolon hproper hstuck)

end ContrastLint
