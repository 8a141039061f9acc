import ContrastLint.Proofs.Noninterference
import ContrastLint.Proofs.Stripping

/-!
# What blanking does

A stylesheet is divided into comments and single characters outside comments.
There is at most one such division, and there is one unless a comment is left
open.  Blanking writes the characters as they are, and for every byte of a
comment a line feed or a space.  What it writes is divided into single
characters only, and its strings open and close where those of the stylesheet
do.  Reading the blanked text as a stylesheet changes nothing but columns.
-/

namespace ContrastLint

namespace Quoting

/-- For a reader of comments a string ends with its line, without a complaint. -/
def pass (s : Quoting) (c : Char) : Quoting :=
  match s.next c with
  | .broken => .outside
  | s' => s'

theorem pass_ne_broken (s : Quoting) (c : Char) : s.pass c ≠ .broken := by
  unfold pass
  split
  · simp
  · assumption

theorem pass_outside_blank {c : Char} (hc : c = ' ' ∨ c = '\n') : outside.pass c = .outside := by
  rcases hc with rfl | rfl <;> rfl

theorem foldl_pass_blanks {blanks : List Char} (hblanks : ∀ c ∈ blanks, c = ' ' ∨ c = '\n') :
    blanks.foldl pass .outside = .outside := by
  induction blanks with
  | nil => rfl
  | cons c blanks ih =>
      obtain ⟨hc, hrest⟩ := List.forall_mem_cons.mp hblanks
      rw [List.foldl_cons, pass_outside_blank hc, ih hrest]

end Quoting

namespace Comment

/-! ## Parts of a stylesheet -/

/-- A character outside comments, or a comment with the text between its markers. -/
inductive Part
  | char (c : Char)
  | comment (body : List Char)
  deriving DecidableEq, Repr

namespace Part

def source : Part → List Char
  | .char c => [c]
  | .comment body => '/' :: '*' :: (body ++ ['*', '/'])

def blanked : Part → List Char
  | .char c => [c]
  | .comment body => (comment body).source.flatMap blankChar

/-- Where strings stand after a part.  The quotes in a comment are none. -/
def after : Quoting → Part → Quoting
  | s, .char c => s.pass c
  | s, .comment _ => s

end Part

/-- A text ends before the first closing marker of a comment. -/
def Unclosing (body : List Char) : Prop :=
  ¬['*', '/'] <:+: body ++ ['*']

/-- The division of a text that is read from a state of strings.  A comment is
opened outside strings, and goes on to the first closing marker. -/
inductive Divided : Quoting → List Char → List Part → Prop
  | nil (s : Quoting) : Divided s [] []
  | char {s : Quoting} {c : Char} {rest : List Char} {parts : List Part}
      (hopen : ¬(s = .outside ∧ c = '/' ∧ rest.head? = some '*'))
      (hrest : Divided (s.pass c) rest parts) : Divided s (c :: rest) (.char c :: parts)
  | comment {body rest : List Char} {parts : List Part} (hbody : Unclosing body)
      (hrest : Divided .outside rest parts) :
      Divided .outside ('/' :: '*' :: (body ++ '*' :: '/' :: rest)) (.comment body :: parts)

section Unclosing

variable {c : Char} {body rest : List Char}

theorem unclosing_nil : Unclosing [] := by
  unfold Unclosing
  decide

theorem unclosing_cons_iff :
    Unclosing (c :: body) ↔ ¬(c = '*' ∧ body.head? = some '/') ∧ Unclosing body := by
  have hhead : ['/'] <+: body ++ ['*'] ↔ body.head? = some '/' := by
    cases body <;> simp [List.cons_prefix_cons, eq_comm]
  unfold Unclosing
  rw [List.cons_append, List.infix_cons_iff, List.cons_prefix_cons, hhead, not_or, eq_comm]

/-- A comment is closed by its first closing marker, if there is one. -/
theorem exists_unclosing (text : List Char) :
    (∃ body rest, text = body ++ '*' :: '/' :: rest ∧ Unclosing body) ∨ Unclosing text := by
  induction text with
  | nil => exact .inr unclosing_nil
  | cons c text ih =>
      by_cases hclose : c = '*' ∧ text.head? = some '/'
      · obtain ⟨rfl, hhead⟩ := hclose
        obtain ⟨rest, rfl⟩ := List.head?_eq_some_iff.mp hhead
        exact .inl ⟨[], rest, rfl, unclosing_nil⟩
      · rcases ih with ⟨body, rest, rfl, hbody⟩ | htext
        · refine .inl ⟨c :: body, rest, rfl, unclosing_cons_iff.mpr ⟨?_, hbody⟩⟩
          rintro ⟨hc, hhead⟩
          obtain ⟨body, rfl⟩ := List.head?_eq_some_iff.mp hhead
          exact hclose ⟨hc, rfl⟩
        · exact .inr (unclosing_cons_iff.mpr ⟨hclose, htext⟩)

theorem head?_of_append_star {more : List Char} (h : body ++ '*' :: more = '/' :: rest) :
    body.head? = some '/' := by
  cases body with
  | nil => simp at h
  | cons c body => simpa using (List.cons_eq_cons.mp h).1

theorem eq_of_unclosing
    {body' rest' : List Char} (h : Unclosing body) (h' : Unclosing body')
    (heq : body ++ '*' :: '/' :: rest = body' ++ '*' :: '/' :: rest') :
    body = body' ∧ rest = rest' := by
  induction body generalizing body' with
  | nil =>
      cases body' with
      | nil => simpa using heq
      | cons d body' =>
          obtain ⟨rfl, hrest⟩ := List.cons_eq_cons.mp heq
          exact absurd ⟨rfl, head?_of_append_star hrest.symm⟩ (unclosing_cons_iff.mp h').1
  | cons c body ih =>
      cases body' with
      | nil =>
          obtain ⟨rfl, hrest⟩ := List.cons_eq_cons.mp heq
          exact absurd ⟨rfl, head?_of_append_star hrest⟩ (unclosing_cons_iff.mp h).1
      | cons d body' =>
          obtain ⟨rfl, htail⟩ := List.cons_eq_cons.mp heq
          obtain ⟨rfl, hsame⟩ := ih (unclosing_cons_iff.mp h).2 (unclosing_cons_iff.mp h').2 htail
          exact ⟨rfl, hsame⟩

end Unclosing

namespace Divided

variable {s : Quoting} {css : List Char} {parts parts' : List Part}

theorem unique (h : Divided s css parts) (h' : Divided s css parts') : parts' = parts := by
  induction h generalizing parts' with
  | nil =>
      cases h'
      rfl
  | char hopen hrest ih =>
      cases h' with
      | char _ hrest' => rw [ih hrest']
      | comment => exact absurd ⟨rfl, rfl, rfl⟩ hopen
  | @comment body rest parts hbody hrest ih =>
      generalize hcss : '/' :: '*' :: (body ++ '*' :: '/' :: rest) = css at h'
      cases h' with
      | nil => contradiction
      | char hopen _ =>
          obtain ⟨rfl, rfl⟩ := List.cons_eq_cons.mp hcss
          exact absurd ⟨rfl, rfl, rfl⟩ hopen
      | comment hbody' hrest' =>
          simp only [List.cons.injEq, true_and] at hcss
          obtain ⟨rfl, rfl⟩ := eq_of_unclosing hbody hbody' hcss
          rw [ih hrest']

theorem source (h : Divided s css parts) : parts.flatMap Part.source = css := by
  induction h with
  | nil => rfl
  | char _ _ ih => simp [Part.source, ih]
  | comment _ _ ih => simp [Part.source, ih]

end Divided

/-! ## The comment machine on parts -/

namespace Pass

/-- The state of the machine in which strings stand as they do. -/
def ofQuoting : Quoting → Pass
  | .outside => .sheet
  | .inside q => .string q
  | .escaped q => .escape q
  | .broken => .sheet

variable {s : Quoting} {offset opener : Nat} {c : Char} {body rest text : List Char}

theorem outcome_char
    (hs : s ≠ .broken) (hopen : ¬(s = .outside ∧ c = '/' ∧ rest.head? = some '*')) :
    (ofQuoting s).outcome offset (c :: rest) =
      (c :: ·) <$> (ofQuoting (s.pass c)).outcome (offset + c.utf8Size) rest := by
  cases s with
  | broken => contradiction
  | outside =>
      cases hq : Quote.ofChar? c with
      | some q =>
          obtain rfl := Quote.char_of_ofChar? hq
          rw [ofQuoting, outcome_quote]
          simp [Quoting.pass, Quoting.next, ofQuoting]
      | none =>
          have hpass : Quoting.outside.pass c = .outside := by
            simp [Quoting.pass, Quoting.next, hq]
          rw [ofQuoting, outcome_sheet hq fun hc hhead => hopen ⟨rfl, hc, hhead⟩, hpass]
          rfl
  | inside q =>
      by_cases hslash : c = '\\'
      · subst hslash
        simp [outcome_cons, covers, next, Quoting.pass, Quoting.next, ofQuoting]
      · rw [ofQuoting, outcome_string hslash]
        by_cases hline : c = '\n'
        · simp [hline, Quoting.pass, Quoting.next, ofQuoting]
        · by_cases hc : c = q.char
          · simp [hc, Quoting.pass, Quoting.next, ofQuoting]
          · simp [hslash, hline, hc, Quoting.pass, Quoting.next, ofQuoting]
  | escaped q => simp [outcome_cons, covers, next, Quoting.pass, Quoting.next, ofQuoting]

/-- A comment is blanked up to its end. -/
theorem outcome_comment_body (opener offset : Nat) (rest : List Char) (hbody : Unclosing body) :
    ∃ offset', (comment opener).outcome offset (body ++ '*' :: '/' :: rest) =
      ((body ++ ['*', '/']).flatMap blankChar ++ ·) <$> sheet.outcome offset' rest := by
  induction body generalizing offset with
  | nil =>
      refine ⟨offset + 2, ?_⟩
      rw [List.nil_append, outcome_closer]
      rfl
  | cons c body ih =>
      obtain ⟨hclose, hbody⟩ := unclosing_cons_iff.mp hbody
      obtain ⟨offset', hrest⟩ := ih (offset + c.utf8Size) hbody
      refine ⟨offset', ?_⟩
      have hfollow : c = '*' → (body ++ '*' :: '/' :: rest).head? ≠ some '/' := by
        intro hc hhead
        obtain ⟨more, hmore⟩ := List.head?_eq_some_iff.mp hhead
        exact hclose ⟨hc, head?_of_append_star hmore⟩
      rw [List.cons_append, outcome_comment hfollow, hrest]
      simp

/-- A comment that is not closed is left open. -/
theorem outcome_comment_of_unclosing (htext : Unclosing text) :
    (comment opener).outcome offset text = .error ⟨.unclosedComment, opener⟩ := by
  induction text generalizing offset with
  | nil => rfl
  | cons c text ih =>
      obtain ⟨hclose, htext⟩ := unclosing_cons_iff.mp htext
      rw [outcome_comment fun hc hhead => hclose ⟨hc, hhead⟩, ih htext]
      rfl

theorem outcome_of_divided
    {css : List Char} {parts : List Part} (hs : s ≠ .broken) (h : Divided s css parts) :
    (ofQuoting s).outcome offset css = .ok (parts.flatMap Part.blanked) := by
  induction h generalizing offset with
  | nil s => cases s <;> rfl
  | @char s c rest parts hopen _ ih =>
      rw [outcome_char hs hopen, ih (s.pass_ne_broken c)]
      rfl
  | @comment body rest parts hbody _ ih =>
      obtain ⟨offset', hcomment⟩ := outcome_comment_body offset (offset + 2) rest hbody
      rw [ofQuoting, outcome_opener, hcomment]
      have hrest : sheet.outcome offset' rest = .ok (parts.flatMap Part.blanked) := ih hs
      rw [hrest]
      rfl

theorem exists_divided_of_outcome
    {css : List Char} (hs : s ≠ .broken) (h : (ofQuoting s).outcome offset css = .ok text) :
    ∃ parts, Divided s css parts ∧ text = parts.flatMap Part.blanked := by
  -- What follows a comment is shorter than the text, but not its first tail.
  induction hlength : css.length using Nat.strong_induction_on generalizing s offset css text with
  | _ n ih =>
      subst hlength
      cases css with
      | nil =>
          refine ⟨[], .nil s, ?_⟩
          cases s <;> cases h <;> rfl
      | cons c css =>
          by_cases hopen : s = .outside ∧ c = '/' ∧ css.head? = some '*'
          · obtain ⟨rfl, rfl, hhead⟩ := hopen
            obtain ⟨inner, rfl⟩ := List.head?_eq_some_iff.mp hhead
            rw [ofQuoting, outcome_opener] at h
            obtain ⟨out, hout, rfl⟩ := map_eq_ok_iff.mp h
            rcases exists_unclosing inner with ⟨body, rest, rfl, hbody⟩ | hinner
            · obtain ⟨offset', hcomment⟩ := outcome_comment_body offset (offset + 2) rest hbody
              obtain ⟨out, hrest, rfl⟩ := map_eq_ok_iff.mp (hcomment.symm.trans hout)
              obtain ⟨parts, hdivided, rfl⟩ := ih rest.length (by simp; omega) hs hrest rfl
              exact ⟨.comment body :: parts, .comment hbody hdivided, rfl⟩
            · rw [outcome_comment_of_unclosing hinner] at hout
              contradiction
          · rw [outcome_char hs hopen] at h
            obtain ⟨out, hout, rfl⟩ := map_eq_ok_iff.mp h
            obtain ⟨parts, hdivided, rfl⟩ := ih css.length (by simp) (s.pass_ne_broken c) hout rfl
            exact ⟨.char c :: parts, .char hopen hdivided, rfl⟩

end Pass

/-- A text can be blanked if it can be divided. -/
theorem blank_eq_ok_iff {css text : List Char} :
    blank css = .ok text ↔
      ∃ parts, Divided .outside css parts ∧ text = parts.flatMap Part.blanked := by
  rw [blank_eq_outcome]
  constructor
  · exact Pass.exists_divided_of_outcome (s := .outside) (by simp)
  · rintro ⟨parts, hdivided, rfl⟩
    exact Pass.outcome_of_divided (s := .outside) (by simp) hdivided

/-! ## The blanked text -/

theorem Part.mem_blanked_comment {body : List Char} {c : Char}
    (h : c ∈ (comment body).blanked) : c = ' ' ∨ c = '\n' := by
  obtain ⟨d, -, hd⟩ := List.mem_flatMap.mp h
  exact mem_blankChar hd

namespace Divided

variable {s : Quoting} {css : List Char} {parts : List Part}

theorem head?_eq_of_blanked (h : Divided s css parts)
    (hstar : (parts.flatMap Part.blanked).head? = some '*') : css.head? = some '*' := by
  cases h with
  | nil => contradiction
  | char => simpa [Part.blanked] using hstar
  | comment =>
      have hspace : some ' ' = some '*' := hstar
      simp at hspace

theorem append_blanks
    {blanks text : List Char} (hblanks : ∀ c ∈ blanks, c = ' ' ∨ c = '\n')
    (h : Divided .outside text (text.map .char)) :
    Divided .outside (blanks ++ text) ((blanks ++ text).map .char) := by
  induction blanks with
  | nil => exact h
  | cons c blanks ih =>
      obtain ⟨hc, hrest⟩ := List.forall_mem_cons.mp hblanks
      refine .char ?_ ?_
      · rintro ⟨-, rfl, -⟩
        simp at hc
      · rw [Quoting.pass_outside_blank hc]
        exact ih hrest

/-- The blanked text has no comments. -/
theorem blanked (h : Divided s css parts) :
    Divided s (parts.flatMap Part.blanked) ((parts.flatMap Part.blanked).map .char) := by
  induction h with
  | nil s => exact .nil s
  | char hopen hrest ih =>
      refine .char ?_ ih
      -- No star comes to stand behind this slash, because a comment begins with a space now.
      rintro ⟨hs, hc, hstar⟩
      exact hopen ⟨hs, hc, hrest.head?_eq_of_blanked hstar⟩
  | @comment body rest parts _ _ ih =>
      exact append_blanks (fun _ => Part.mem_blanked_comment) ih

/-- After any parts strings stand as they do in the blanked text. -/
theorem foldl_after
    {front back : List Part} (h : Divided s css parts) (hparts : parts = front ++ back) :
    (front.flatMap Part.blanked).foldl Quoting.pass s = front.foldl Part.after s := by
  induction h generalizing front with
  | nil =>
      obtain ⟨rfl, -⟩ := List.append_eq_nil_iff.mp hparts.symm
      rfl
  | char _ _ ih =>
      cases front with
      | nil => rfl
      | cons part front =>
          obtain ⟨rfl, hrest⟩ := List.cons_eq_cons.mp hparts
          exact ih hrest
  | comment _ _ ih =>
      cases front with
      | nil => rfl
      | cons part front =>
          obtain ⟨rfl, hrest⟩ := List.cons_eq_cons.mp hparts
          rw [List.flatMap_cons, List.foldl_append,
            Quoting.foldl_pass_blanks fun _ => Part.mem_blanked_comment, ih hrest]
          rfl

end Divided

/-! ## Bytes -/

open Bytewise (bytes bytes_append length_bytes)

/-- What a byte of a comment is replaced by: the byte of the blank that is written for
it. -/
def blankByte (b : UInt8) : UInt8 :=
  (Bytewise.blankByte b).toUInt8

theorem bytes_blankByte (b : UInt8) : bytes [Bytewise.blankByte b] = [blankByte b] := by
  unfold blankByte Bytewise.blankByte
  split <;> rfl

theorem blankByte_eq_newline_iff {b : UInt8} : blankByte b = '\n'.toUInt8 ↔ b = '\n'.toUInt8 := by
  unfold blankByte Bytewise.blankByte
  split
  · next hb => exact ⟨fun _ => hb, fun _ => rfl⟩
  · next hb =>
      constructor
      · intro h
        exact absurd h (by decide)
      · exact fun h => absurd h hb

theorem bytes_flatMap_blankChar (text : List Char) :
    bytes (text.flatMap blankChar) = (bytes text).map blankByte := by
  rw [← Bytewise.map_blankByte_bytes]
  induction bytes text with
  | nil => rfl
  | cons b more ih =>
      have hcons : bytes ((b :: more).map Bytewise.blankByte) =
          bytes [Bytewise.blankByte b] ++ bytes (more.map Bytewise.blankByte) :=
        bytes_append [Bytewise.blankByte b] _
      rw [hcons, bytes_blankByte, ih, List.map_cons, List.singleton_append]

/-- What becomes of the bytes of a part. -/
def Part.blankedBytes : Part → List UInt8
  | .char c => bytes [c]
  | .comment body => (bytes (comment body).source).map blankByte

theorem Part.bytes_blanked (part : Part) : bytes part.blanked = part.blankedBytes := by
  cases part with
  | char c => rfl
  | comment body => exact bytes_flatMap_blankChar (comment body).source

theorem bytes_flatMap (f : Part → List Char) (parts : List Part) :
    bytes (parts.flatMap f) = parts.flatMap fun part => bytes (f part) := by
  simp [bytes, List.flatMap_assoc]

/-- The line feeds of a part stand at the same bytes when it is blanked. -/
theorem Part.map_eq_newline (part : Part) :
    part.blankedBytes.map (· == '\n'.toUInt8) = (bytes part.source).map (· == '\n'.toUInt8) := by
  cases part with
  | char c => rfl
  | comment body =>
      rw [blankedBytes, List.map_map]
      apply List.map_congr_left
      intro b _
      rw [Function.comp_apply, Bool.eq_iff_iff]
      simp only [beq_iff_eq, blankByte_eq_newline_iff]

/-- What a blanked stylesheet has to do with its parts. -/
structure Blanks (css : List Char) (parts : List Part) (text : List Char) : Prop where
  divided : ∀ other, Divided .outside css other ↔ other = parts
  source : bytes css = parts.flatMap fun part => bytes part.source
  blanked : bytes text = parts.flatMap Part.blankedBytes
  length : (bytes text).length = (bytes css).length
  newline : ∀ i : Nat, (bytes text)[i]? = some '\n'.toUInt8 ↔ (bytes css)[i]? = some '\n'.toUInt8
  /-- Strings are open in the blanked text where they are in the stylesheet. -/
  strings : ∀ front back, parts = front ++ back →
    (front.flatMap Part.blanked).foldl Quoting.pass .outside = front.foldl Part.after .outside
  undivided : ∀ other, Divided .outside text other ↔ other = text.map .char

theorem blanks_of_divided {css : List Char} {parts : List Part}
    (h : Divided .outside css parts) : Blanks css parts (parts.flatMap Part.blanked) := by
  have hsource : bytes css = parts.flatMap fun part => bytes part.source := by
    rw [← bytes_flatMap, h.source]
  have hblanked : bytes (parts.flatMap Part.blanked) = parts.flatMap Part.blankedBytes := by
    rw [bytes_flatMap]
    exact List.flatMap_congr fun part _ => part.bytes_blanked
  have hnewline : (bytes (parts.flatMap Part.blanked)).map (· == '\n'.toUInt8) =
      (bytes css).map (· == '\n'.toUInt8) := by
    rw [hsource, hblanked, List.map_flatMap, List.map_flatMap]
    exact List.flatMap_congr fun part _ => part.map_eq_newline
  constructor
  case divided =>
    intro other
    constructor
    · exact fun hother => h.unique hother
    · rintro rfl
      exact h
  case source => exact hsource
  case blanked => exact hblanked
  case length =>
    have hlength := congrArg List.length hnewline
    rwa [List.length_map, List.length_map] at hlength
  case newline =>
    intro i
    have hbyte := congrArg (·[i]?) hnewline
    simp only [List.getElem?_map] at hbyte
    have hfound : ∀ found : Option UInt8,
        found = some '\n'.toUInt8 ↔ found.map (· == '\n'.toUInt8) = some true := by
      intro found
      cases found <;> simp
    rw [hfound, hfound, hbyte]
  case strings => exact fun front back hparts => h.foldl_after hparts
  case undivided =>
    intro other
    constructor
    · exact fun hother => h.blanked.unique hother
    · rintro rfl
      exact h.blanked

end Comment

/-! ## Parsing the blanked text -/

/-- Two results of parsing that differ in columns at most. -/
def SameButColumns :
    Except ParseError (Document Position) → Except ParseError (Document Position) → Prop
  | .ok doc, .ok doc' => doc.map Position.spot = doc'.map Position.spot
  | .error e, .error e' => e.defect = e'.defect ∧ e.position.spot = e'.position.spot
  | _, _ => False

namespace Comment

variable {css text : List Char} {place : Nat}

theorem Pass.count_blanked (p : Pass) (offset : Nat) (text : List Char) :
    (p.blanked offset text).count '\n' = text.count '\n' := by
  induction text generalizing p offset with
  | nil => rfl
  | cons c text ih =>
      rw [blanked, List.count_append, ih, count_chunk, ← List.count_append]
      rfl

/-- What shows in the blanked text is located at the same line of both texts. -/
theorem spot_locate_of_shows (h : blank css = .ok text) (hshows : Text.Shows 0 text place) :
    (Position.locate css place).spot = (Position.locate text place).spot := by
  obtain ⟨a, c, b, rfl, rfl, hspace, hline⟩ := hshows
  obtain ⟨before, rest, rfl, hlength, hbefore, -⟩ :=
    Pass.exists_split (blankFrom_sheet_eq_ok_iff.mp h).2 hspace hline
  have hcount : before.count '\n' = a.count '\n' := by
    have hcount := Pass.count_blanked .sheet 0 (before ++ [c])
    rw [hbefore, List.count_append, List.count_append] at hcount
    omega
  rw [Nat.zero_add, ← hlength]
  exact Position.spot_locate_eq (List.prefix_append before (c :: rest))
    (List.prefix_append a (c :: b)) hlength hcount

end Comment

/-- Reading the blanked text finds the same nodes, or the same fault. -/
theorem sameButColumns_of_blank {css : String} {text : List Char}
    (h : Comment.blank css.toList = .ok text) (hagain : Comment.blank text = .ok text) :
    SameButColumns (parse css) (parse (.ofList text)) := by
  have hread : Document.read css.toList = Document.ofBlanked text := by
    rw [Document.read, h, bind_ok]
  have hread' : Document.read text = Document.ofBlanked text := by
    rw [Document.read, hagain, bind_ok]
  unfold parse
  rw [String.toList_ofList, hread, hread']
  cases hdoc : Document.ofBlanked text with
  | ok doc =>
      have hshows := Document.shows_of_ofBlanked hdoc
      have hboundary := Document.boundary_of_read (hread.trans hdoc)
      have hboundary' := Document.boundary_of_read (hread'.trans hdoc)
      simp only [SameButColumns]
      rw [Document.locate_eq_map hboundary, Document.locate_eq_map hboundary', Document.map_map,
        Document.map_map]
      apply Document.map_congr
      intro place hplace
      exact Comment.spot_locate_of_shows h (hshows place hplace)
  | error fault =>
      have hshows := Document.shows_of_ofBlanked_eq_error hdoc
      exact ⟨rfl, Comment.spot_locate_of_shows h hshows⟩

/-- Blanking leaves what is outside comments, and of every comment its line feeds.
The blanked text has no comments and is blanked no further, and it is parsed as
the stylesheet is. -/
theorem blanks_and_parse_of_blank {css : String} {text : List Char}
    (h : Comment.blank css.toList = .ok text) :
    (∃ parts, Comment.Blanks css.toList parts text) ∧ Comment.blank text = .ok text ∧
      SameButColumns (parse css) (parse (.ofList text)) := by
  obtain ⟨parts, hdivided, rfl⟩ := Comment.blank_eq_ok_iff.mp h
  have hagain : Comment.blank (parts.flatMap Comment.Part.blanked) =
      .ok (parts.flatMap Comment.Part.blanked) := by
    rw [Comment.blank_eq_ok_iff]
    refine ⟨_, hdivided.blanked, ?_⟩
    simp [List.flatMap_map, Comment.Part.blanked]
  exact ⟨⟨parts, Comment.blanks_of_divided hdivided⟩, hagain, sameButColumns_of_blank h hagain⟩

/-- The case of a marker in a string and a comment of two lines with a quote. -/
theorem blanks_and_parse_of_blank_quoted :
    let css := "a\x7bcontent:\"/*\";/*é\n\x27*/color:red\x7d"
    let text := "a\x7bcontent:\"/*\";    \n   color:red\x7d"
    Comment.blank css.toList = .ok text.toList ∧
      (∃ parts, Comment.Blanks css.toList parts text.toList) ∧
      Comment.blank text.toList = .ok text.toList ∧ SameButColumns (parse css) (parse text) := by
  intro css text
  have hblank : Comment.blank css.toList = .ok text.toList := by decide +kernel
  have hall := blanks_and_parse_of_blank hblank
  rw [String.ofList_toList] at hall
  exact ⟨hblank, hall⟩

end ContrastLint
