import ContrastLint.Proofs.Searches
import ContrastLint.Stylesheet.Glyph

/-!
# Comments over bytes

The reader of comments over bytes puts out what the reader over characters does.
It copies what it has passed only when it meets a comment, and at the end, so
that a part of the text is always pending: between what is put out and the
offset where the reader stands.
-/

namespace ContrastLint.Bytewise

open Comment (Mode blankFrom blankChar)

variable {text front pending rest : List Char} {c d : Char} {i : Nat}

/-! ## The bytes of a comment -/

theorem map_blankByte (c : Char) : (String.utf8EncodeChar c).map blankByte = blankChar c := by
  by_cases hsize : c.utf8Size = 1
  · have hline : '\n'.utf8Size = 1 := rfl
    rw [String.utf8EncodeChar_eq_singleton hsize, blankChar, hsize]
    have hbyte : blankByte c.toUInt8 = if c = '\n' then '\n' else ' ' := by
      rw [blankByte]
      simp only [toUInt8_inj hsize hline]
    have hblank : [blankByte c.toUInt8] = if c = '\n' then ['\n'] else List.replicate 1 ' ' := by
      rw [hbyte]
      split <;> rfl
    exact hblank
  · have hne : c ≠ '\n' := by
      rintro rfl
      exact hsize rfl
    rw [blankChar, if_neg hne, List.eq_replicate_iff]
    refine ⟨by simp, ?_⟩
    intro d hd
    obtain ⟨b, hb, rfl⟩ := List.mem_map.mp hd
    rw [blankByte, if_neg (ne_toUInt8_of_le (le_of_mem_utf8EncodeChar hsize hb) rfl)]

theorem map_blankByte_bytes (text : List Char) :
    (bytes text).map blankByte = text.flatMap blankChar := by
  rw [bytes, List.map_flatMap]
  exact List.flatMap_congr fun c _ => map_blankByte c

/-- An ASCII character is read off its byte. -/
theorem At.eq_cons_of_byte (h : At text i rest) (hd : d.utf8Size = 1)
    (hbyte : (bytes text)[i]? = some d.toUInt8) : ∃ after, rest = d :: after := by
  cases rest with
  | nil =>
      have hlength := h.byteLength
      rw [Text.byteLength_nil] at hlength
      rw [List.getElem?_eq_none (by rw [length_bytes]; omega)] at hbyte
      contradiction
  | cons c rest =>
      have hfirst := h.getElem?_bytes (j := 0) c.utf8Size_pos
      rw [Nat.add_zero, hbyte] at hfirst
      have hmem := List.mem_of_getElem? hfirst.symm
      by_cases hsize : c.utf8Size = 1
      · rw [String.utf8EncodeChar_eq_singleton hsize, List.mem_singleton] at hmem
        obtain rfl := (toUInt8_inj hd hsize).mp hmem
        exact ⟨rest, rfl⟩
      · exact absurd rfl (ne_toUInt8_of_le (le_of_mem_utf8EncodeChar hsize hmem) hd)

theorem At.star (h : At text i ('/' :: '*' :: rest)) :
    (bytes text)[i + 1]? = some '*'.toUInt8 ∧ At text (i + 2) rest :=
  have hstar : At text (i + 1) ('*' :: rest) := h.next
  ⟨hstar.getElem?_of_ascii rfl, hstar.next⟩

/-! ## The end of a comment -/

theorem blankFrom_opener (offset : Nat) (rest : List Char) :
    blankFrom .sheet offset ('/' :: '*' :: rest) =
      (' ' :: ' ' :: ·) <$> blankFrom (.comment offset) (offset + 2) rest := rfl

theorem blankFrom_comment_cons
    (opener offset : Nat) (hother : ∀ after, c = '*' → rest ≠ '/' :: after) :
    blankFrom (.comment opener) offset (c :: rest) =
      (blankChar c ++ ·) <$> blankFrom (.comment opener) (offset + c.utf8Size) rest := by
  rw [blankFrom]
  exact hother

theorem blankFrom_comment_of_unclosed (opener offset : Nat) (h : findClose? rest = none) :
    blankFrom (.comment opener) offset rest = .error ⟨.unclosedComment, opener⟩ := by
  fun_induction findClose? rest generalizing offset with
  | case1 => rfl
  | case2 => contradiction
  | case3 c rest hother ih =>
      rw [blankFrom_comment_cons opener offset fun after hc hrest => hother after hc hrest,
        ih (offset + c.utf8Size) (by simpa using h)]
      rfl

/-- A comment is blanked up to the first star and slash. -/
theorem exists_body_of_findClose? {length : Nat} (h : findClose? rest = some length) :
    ∃ body after, rest = body ++ '*' :: '/' :: after ∧ length = Text.byteLength body ∧
      ∀ opener offset, blankFrom (.comment opener) offset rest =
        (body.flatMap blankChar ++ [' ', ' '] ++ ·) <$>
          blankFrom .sheet (offset + Text.byteLength body + 2) after := by
  fun_induction findClose? rest generalizing length with
  | case1 => contradiction
  | case2 after =>
      cases h
      exact ⟨[], after, rfl, rfl, fun opener offset => rfl⟩
  | case3 c rest hother ih =>
      obtain ⟨tail, hfind, rfl⟩ := Option.map_eq_some_iff.mp h
      obtain ⟨body, after, rfl, rfl, hblank⟩ := ih hfind
      refine ⟨c :: body, after, rfl, rfl, ?_⟩
      intro opener offset
      rw [blankFrom_comment_cons opener offset fun after hc hrest => hother after hc hrest,
        hblank, Text.byteLength_cons, ← Nat.add_assoc]
      cases blankFrom .sheet (offset + c.utf8Size + Text.byteLength body + 2) after <;> simp

/-! ## Rounds -/

namespace Stripper

variable {out : List Char} {copied : Nat} {quote : Char} {b : UInt8}

theorem act_backslash :
    act text ⟨out, copied, some quote.toUInt8⟩ i '\\'.toUInt8 =
      .ok (.next ⟨out, copied, some quote.toUInt8⟩ (i + 2)) := by
  simp [act]

theorem act_string_of_other
    (hsize : c.utf8Size = 1) (hquote : quote.utf8Size = 1) (hslash : c ≠ '\\') :
    act text ⟨out, copied, some quote.toUInt8⟩ i c.toUInt8 =
      .ok (.next
        ⟨out, copied, (if c = quote ∨ c = '\n' then none else some quote).map Char.toUInt8⟩
        (i + 1)) := by
  simp (disch := first | decide | assumption) only [act, toUInt8_inj hsize, hslash, if_false]
  split <;> rfl

theorem act_string_of_le (hquote : quote.utf8Size = 1) (hb : 128 ≤ b.toNat) :
    act text ⟨out, copied, some quote.toUInt8⟩ i b =
      .ok (.next ⟨out, copied, some quote.toUInt8⟩ (i + 1)) := by
  have hne : ∀ d : Char, d.utf8Size = 1 → b ≠ d.toUInt8 := fun d => ne_toUInt8_of_le hb
  simp (disch := first | decide | assumption) [act, hne]

theorem act_sheet_of_le (hb : 128 ≤ b.toNat) :
    act text ⟨out, copied, none⟩ i b = .ok (.next ⟨out, copied, none⟩ (i + 1)) := by
  have hne : ∀ d : Char, d.utf8Size = 1 → b ≠ d.toUInt8 := fun d => ne_toUInt8_of_le hb
  simp (disch := decide) [act, isQuoteByte_of_le hb, hne]

theorem act_quote (hquote : Text.isQuote quote = true) :
    act text ⟨out, copied, none⟩ i quote.toUInt8 =
      .ok (.next ⟨out, copied, some quote.toUInt8⟩ (i + 1)) := by
  simp only [act, isQuoteByte_toUInt8 (utf8Size_of_isQuote hquote), hquote, if_true]

theorem act_sheet_of_other
    (h : At text i (c :: rest)) (hsize : c.utf8Size = 1) (hquote : Text.isQuote c = false)
    (hopener : ∀ after, c = '/' → rest ≠ '*' :: after) :
    act text ⟨out, copied, none⟩ i c.toUInt8 = .ok (.next ⟨out, copied, none⟩ (i + 1)) := by
  have hnone : ¬(c = '/' ∧ (bytes text)[i + 1]? = some '*'.toUInt8) := by
    rintro ⟨hslash, hstar⟩
    have hnext := h.next
    rw [hsize] at hnext
    obtain ⟨after, rfl⟩ := hnext.eq_cons_of_byte rfl hstar
    exact hopener after hslash rfl
  simp (disch := decide) only [act, isQuoteByte_toUInt8 hsize, hquote, toUInt8_inj hsize, hnone,
    Bool.false_eq_true, if_false]

theorem act_opener (h : At text i ('/' :: '*' :: rest)) :
    act text ⟨out, copied, none⟩ i '/'.toUInt8 = comment text ⟨out, copied, none⟩ i := by
  have hquote : isQuoteByte '/'.toUInt8 = false := rfl
  simp only [act, hquote, Bool.false_eq_true, if_false, h.star.1, and_self, if_true]

theorem act_unclosed (h : At text i ('/' :: '*' :: rest)) (hfind : findClose? rest = none) :
    act text ⟨out, copied, none⟩ i '/'.toUInt8 = raise ⟨.unclosedComment, i⟩ := by
  rw [act_opener h, comment, sliceFrom_of_at h.star.2, bind_ok, hfind]

/-- A comment is put out blanked, after what is pending. -/
theorem act_comment
    {body after : List Char} {stop : Nat}
    (h : At text copied (pending ++ ('/' :: '*' :: (body ++ '*' :: '/' :: after))))
    (hfind : findClose? (body ++ '*' :: '/' :: after) = some (Text.byteLength body))
    (hi : i = copied + Text.byteLength pending) (hstop : stop = i + 2 + Text.byteLength body + 2) :
    act text ⟨out, copied, none⟩ i '/'.toUInt8 =
      .ok (.next
        ⟨out ++ pending ++ (' ' :: ' ' :: (body.flatMap blankChar ++ [' ', ' '])), stop, none⟩
        stop) := by
  have hslash : '/'.utf8Size = 1 := rfl
  have hstar : '*'.utf8Size = 1 := rfl
  have hopener : At text i ('/' :: '*' :: (body ++ '*' :: '/' :: after)) := hi ▸ h.append
  have hcomment : At text i (('/' :: '*' :: (body ++ ['*', '/'])) ++ after) := by
    simpa using hopener
  have hlength : stop = i + Text.byteLength ('/' :: '*' :: (body ++ ['*', '/'])) := by
    simp [hstop, hslash, hstar]
    omega
  have hblank : (bytes ('/' :: '*' :: (body ++ ['*', '/']))).map blankByte =
      ' ' :: ' ' :: (body.flatMap blankChar ++ [' ', ' ']) := by
    rw [map_blankByte_bytes]
    simp [blankChar, hslash, hstar]
  have hslice := sliceBytes_of_at (ε := Fault) hcomment
  have hkept := slice_of_at (ε := Fault) h
  rw [← hlength] at hslice
  rw [← hi] at hkept
  rw [act_opener hopener, comment, sliceFrom_of_at hopener.star.2, bind_ok, hfind]
  simp only [← hstop, hkept, hslice, bind_ok, hblank]
  rfl

/-! ## Runs -/

/-- Where a reader over characters stands that is in no comment. -/
def mode : Option Char → Mode
  | none => .sheet
  | some quote => .string quote

/-- A run of the reader from a round on. -/
abbrev run (text out : List Char) (copied : Nat) (quote? : Option Char) (i : Nat) :
    Checked Fault (List Char) :=
  walk text (bytes text).length (act text) (finish text) ⟨out, copied, quote?.map Char.toUInt8⟩ i

/-- From where `rest` is left, a run puts out what is pending, and then what the
reader over characters does with `rest`. -/
def Tracks (text : List Char) (quote? : Option Char) (rest : List Char) : Prop :=
  ∀ out pending copied i, At text copied (pending ++ rest) →
    i = copied + Text.byteLength pending →
    run text out copied quote? i =
      ((out ++ pending ++ ·) <$> blankFrom (mode quote?) i rest).mapError .fault

theorem run_end
    {quote? : Option Char} (h : At text copied pending) (hi : (bytes text).length ≤ i) :
    run text out copied quote? i = .ok (out ++ pending) := by
  rw [run, walk_of_le hi, finish, sliceFrom_of_at h, bind_ok]
  rfl

theorem tracks_nil (text : List Char) (quote? : Option Char) : Tracks text quote? [] := by
  intro out pending copied i h hi
  have hend : (bytes text).length ≤ i := by
    rw [length_bytes, h.byteLength, List.append_nil]
    omega
  rw [List.append_nil] at h
  rw [run_end h hend]
  cases quote? <;> simp [mode, blankFrom, Except.mapError]

/-- A part of the text is passed and becomes pending. -/
theorem Tracks.pass
    {quote? next? : Option Char} {part : List Char} (h : Tracks text next? rest)
    (hrun : ∀ {out copied i}, At text i (part ++ rest) →
      i + Text.byteLength part ≤ (bytes text).length →
      run text out copied quote? i = run text out copied next? (i + Text.byteLength part))
    (hblank : ∀ i, blankFrom (mode quote?) i (part ++ rest) =
      (part ++ ·) <$> blankFrom (mode next?) (i + Text.byteLength part) rest) :
    Tracks text quote? (part ++ rest) := by
  intro out pending copied i hat hi
  have hhere : At text i (part ++ rest) := hi ▸ hat.append
  have hlimit : i + Text.byteLength part ≤ (bytes text).length := by
    rw [length_bytes, hhere.byteLength, Text.byteLength_append]
    omega
  have hnext : At text copied ((pending ++ part) ++ rest) := by simpa using hat
  have hafter : i + Text.byteLength part = copied + Text.byteLength (pending ++ part) := by
    rw [hi, Text.byteLength_append, Nat.add_assoc]
  rw [hrun hhere hlimit, h _ _ _ _ hnext hafter, hblank]
  cases blankFrom (mode next?) (i + Text.byteLength part) rest <;> simp [Except.mapError]

theorem Tracks.sheet
    (h : Tracks text none rest) (hquote : Text.isQuote c = false)
    (hopener : ∀ after, c = '/' → rest ≠ '*' :: after) : Tracks text none ([c] ++ rest) := by
  apply h.pass
  · intro out copied i hat hlimit
    rw [Text.byteLength_cons, Text.byteLength_nil, Nat.add_zero] at hlimit ⊢
    exact walk_char hat hlimit (fun j b hb => act_sheet_of_le hb) (fun _ => rfl) fun hsize =>
      act_sheet_of_other hat hsize hquote hopener
  · intro i
    rw [mode, List.singleton_append, blankFrom, hquote, Text.byteLength_cons, Text.byteLength_nil]
    · rfl
    · exact fun after hc hrest => hopener after hc hrest

theorem Tracks.openQuote
    (h : Tracks text (some quote) rest) (hquote : Text.isQuote quote = true) :
    Tracks text none ([quote] ++ rest) := by
  have hsize := utf8Size_of_isQuote hquote
  apply h.pass
  · intro out copied i hat hlimit
    rw [Text.byteLength_cons, Text.byteLength_nil, hsize] at hlimit ⊢
    exact walk_of_next (by omega) (byteAt_of_ascii hat hsize) (act_quote hquote) (by omega)
  · intro i
    rw [mode, List.singleton_append, blankFrom, hquote, Text.byteLength_cons, Text.byteLength_nil]
    · rfl
    · rintro after rfl rfl
      contradiction

theorem Tracks.escape
    (h : Tracks text (some quote) rest) (hquote : Text.isQuote quote = true) :
    Tracks text (some quote) (['\\', c] ++ rest) := by
  have hsize := utf8Size_of_isQuote hquote
  have hslash : '\\'.utf8Size = 1 := rfl
  apply h.pass
  · intro out copied i hat hlimit
    have hbytes : i + Text.byteLength ['\\', c] = i + 1 + c.utf8Size := by
      simp [hslash, Nat.add_assoc]
    rw [hbytes] at hlimit ⊢
    exact walk_jump hat hslash hlimit (fun j b hb => act_string_of_le hsize hb) act_backslash
  · intro i
    have hbytes : i + Text.byteLength ['\\', c] = i + 1 + c.utf8Size := by
      simp [hslash, Nat.add_assoc]
    rw [hbytes]
    rfl

theorem Tracks.string
    (h : Tracks text (if c = quote ∨ c = '\n' then none else some quote) rest)
    (hquote : Text.isQuote quote = true) (hslash : c ≠ '\\') :
    Tracks text (some quote) ([c] ++ rest) := by
  have hsize := utf8Size_of_isQuote hquote
  apply h.pass
  · intro out copied i hat hlimit
    rw [Text.byteLength_cons, Text.byteLength_nil, Nat.add_zero] at hlimit ⊢
    apply walk_char hat hlimit fun j b hb => act_string_of_le hsize hb
    case hstays =>
      intro hwide
      have hstays : ¬(c = quote ∨ c = '\n') := by
        rintro (rfl | rfl)
        · exact hwide hsize
        · exact hwide rfl
      rw [if_neg hstays]
      rfl
    case hascii => exact fun hc => act_string_of_other hc hsize hslash
  · intro i
    rw [mode, List.singleton_append, blankFrom, Text.byteLength_cons, Text.byteLength_nil]
    · split <;> rfl
    · rintro d after rfl
      contradiction

theorem tracks_unclosed (hfind : findClose? rest = none) :
    Tracks text none ('/' :: '*' :: rest) := by
  intro out pending copied i hat hi
  have hhere : At text i ('/' :: '*' :: rest) := hi ▸ hat.append
  have hslash : '/'.utf8Size = 1 := rfl
  have hlt : i < (bytes text).length := by
    rw [length_bytes, hhere.byteLength, Text.byteLength_cons]
    omega
  rw [run, Option.map_none, mode, blankFrom_opener, blankFrom_comment_of_unclosed i (i + 2) hfind,
    walk_of_error hlt (byteAt_of_ascii hhere hslash) (act_unclosed hhere hfind)]
  rfl

theorem Tracks.comment
    {body after : List Char} (h : Tracks text none after)
    (hfind : findClose? (body ++ '*' :: '/' :: after) = some (Text.byteLength body))
    (hblank : ∀ opener offset, blankFrom (.comment opener) offset (body ++ '*' :: '/' :: after) =
      (body.flatMap blankChar ++ [' ', ' '] ++ ·) <$>
        blankFrom .sheet (offset + Text.byteLength body + 2) after) :
    Tracks text none ('/' :: '*' :: (body ++ '*' :: '/' :: after)) := by
  intro out pending copied i hat hi
  have hslash : '/'.utf8Size = 1 := rfl
  have hopener : At text i ('/' :: '*' :: (body ++ '*' :: '/' :: after)) := hi ▸ hat.append
  have hlt : i < (bytes text).length := by
    rw [length_bytes, hopener.byteLength, Text.byteLength_cons]
    omega
  -- After a comment nothing is pending.
  have hnext : At text (i + 2 + Text.byteLength body + 2) ([] ++ after) :=
    At.next (At.next hopener.star.2.append)
  have hstand : i + 2 + Text.byteLength body + 2 =
      i + 2 + Text.byteLength body + 2 + Text.byteLength [] := rfl
  rw [run, Option.map_none, mode, blankFrom_opener, hblank,
    walk_of_next hlt (byteAt_of_ascii hopener hslash) (act_comment hat hfind hi rfl) (by omega)]
  refine (h _ _ _ _ hnext hstand).trans ?_
  rw [mode]
  cases blankFrom .sheet (i + 2 + Text.byteLength body + 2) after <;> simp [Except.mapError]

theorem tracks_backslash (hquote : Text.isQuote quote = true) :
    Tracks text (some quote) ['\\'] := by
  intro out pending copied i hat hi
  have hhere : At text i ['\\'] := hi ▸ hat.append
  have hslash : '\\'.utf8Size = 1 := rfl
  have hlimit : (bytes text).length = i + 1 := by
    rw [length_bytes, hhere.byteLength]
    rfl
  rw [run, Option.map_some,
    walk_of_next (by omega) (byteAt_of_ascii hhere hslash) act_backslash (by omega)]
  have hend : (bytes text).length ≤ i + 2 := by omega
  have hrest : run text out copied (some quote) (i + 2) = .ok (out ++ (pending ++ ['\\'])) :=
    run_end hat hend
  have hne : '\\' ≠ quote := (Glyph.ne_of_isQuote hquote).1.symm
  refine hrest.trans ?_
  simp [mode, blankFrom, Except.mapError, hne]

theorem tracks (text : List Char) {quote? : Option Char}
    (hquote : ∀ quote, quote? = some quote → Text.isQuote quote = true) (rest : List Char) :
    Tracks text quote? rest := by
  -- A comment and an escape are passed as a whole, so that what is left is only shorter.
  induction hlength : rest.length using Nat.strongRecOn generalizing quote? rest with
  | ind n ih =>
      have hshorter (next? : Option Char)
          (hnext : ∀ quote, next? = some quote → Text.isQuote quote = true) (after : List Char)
          (hlt : after.length < n) : Tracks text next? after :=
        ih after.length hlt hnext after rfl
      have hsheet (after : List Char) (hlt : after.length < n) : Tracks text none after :=
        hshorter none (by simp) after hlt
      cases rest with
      | nil => exact tracks_nil text quote?
      | cons c rest =>
          rw [List.length_cons] at hlength
          cases quote? with
          | none =>
              cases hc : Text.isQuote c with
              | true => exact (hshorter (some c) (by simpa using hc) rest (by omega)).openQuote hc
              | false =>
                  by_cases hopener : c = '/' ∧ ∃ after, rest = '*' :: after
                  · obtain ⟨rfl, inner, rfl⟩ := hopener
                    rw [List.length_cons] at hlength
                    cases hfind : findClose? inner with
                    | none => exact tracks_unclosed hfind
                    | some length =>
                        obtain ⟨body, after, rfl, rfl, hblank⟩ := exists_body_of_findClose? hfind
                        rw [List.length_append, List.length_cons, List.length_cons] at hlength
                        exact (hsheet after (by omega)).comment hfind hblank
                  · apply (hsheet rest (by omega)).sheet hc
                    exact fun after hslash hstar => hopener ⟨hslash, after, hstar⟩
          | some quote =>
              have hopen := hquote quote rfl
              by_cases hslash : c = '\\'
              · subst hslash
                cases rest with
                | nil => exact tracks_backslash hopen
                | cons d rest =>
                    rw [List.length_cons] at hlength
                    exact (hshorter (some quote) hquote rest (by omega)).escape hopen
              · refine (hshorter _ ?_ rest (by omega)).string hopen hslash
                intro next hnext
                split at hnext
                · contradiction
                · exact hquote next hnext

end Stripper

theorem stripComments_eq (text : List Char) :
    stripComments text = (Comment.blank text).mapError .fault := by
  have htracks : Stripper.Tracks text none text := Stripper.tracks text (by simp) text
  have hstart : At text 0 ([] ++ text) := at_zero text
  refine (htracks [] [] 0 0 hstart rfl).trans ?_
  rw [Stripper.mode]
  cases hblank : blankFrom .sheet 0 text <;> simp [Except.mapError, Comment.blank, hblank]

end ContrastLint.Bytewise
