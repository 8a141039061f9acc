import ContrastLint.Proofs.Quoting
import ContrastLint.Text.Position
import Mathlib.Data.List.DropRight

/-!
# Positions without a cursor

The position after a text is a matter of counting: its bytes, its line feeds,
and the characters after the last of them.  The locator does not count anew.
It looks a line up and counts on from a point that an earlier lookup has left
behind.

The cursor is coherent if it is a point of the text.  Every lookup at a
character boundary keeps it so and finds the position that counting finds; it
never has to count bytes in place of characters.
-/

namespace ContrastLint

namespace Text

/-- The characters after the last line feed. -/
def lastLine (text : List Char) : List Char :=
  text.rtakeWhile (· ≠ '\n')

variable {a b text : List Char}

theorem newline_notMem_lastLine (text : List Char) : '\n' ∉ lastLine text := by
  intro hmem
  simpa using List.mem_rtakeWhile_imp hmem

theorem lastLine_of_notMem (h : '\n' ∉ text) : lastLine text = text := by
  rw [lastLine, List.rtakeWhile_eq_self_iff]
  intro c hc
  simp only [decide_eq_true_eq]
  rintro rfl
  exact h hc

theorem lastLine_append_newline (a b : List Char) :
    lastLine (a ++ '\n' :: b) = lastLine b := by
  induction b using List.reverseRecOn with
  | nil => exact List.rtakeWhile_concat_neg _ _ _ (by simp)
  | append_singleton b c ih =>
      have hassoc : a ++ '\n' :: (b ++ [c]) = (a ++ '\n' :: b) ++ [c] := by simp
      rw [hassoc]
      unfold lastLine at ih ⊢
      by_cases hc : c = '\n'
      · rw [List.rtakeWhile_concat_neg _ _ _ (by simp [hc]),
          List.rtakeWhile_concat_neg _ _ _ (by simp [hc])]
      · rw [List.rtakeWhile_concat_pos _ _ _ (by simp [hc]),
          List.rtakeWhile_concat_pos _ _ _ (by simp [hc]), ih]

theorem lastLine_append (h : '\n' ∉ b) : lastLine (a ++ b) = lastLine a ++ b := by
  induction b using List.reverseRecOn with
  | nil => simp
  | append_singleton b c ih =>
      have hb : '\n' ∉ b ∧ '\n' ≠ c := by simpa using h
      rw [← List.append_assoc, lastLine,
        List.rtakeWhile_concat_pos _ _ _ (by simpa using hb.2.symm)]
      have hrest := ih hb.1
      unfold lastLine at hrest ⊢
      rw [hrest, List.append_assoc]

/-- A text is its last line, after nothing or after a line feed. -/
theorem exists_lastLine (text : List Char) :
    '\n' ∉ text ∨ ∃ lines, text = lines ++ '\n' :: lastLine text := by
  by_cases h : '\n' ∈ text
  · obtain ⟨after, before, hreverse, hafter⟩ :=
      List.eq_append_cons_of_mem (List.mem_reverse.mpr h)
    have htext : text = before.reverse ++ '\n' :: after.reverse := by
      rw [← List.reverse_reverse text, hreverse]
      simp
    have hline : lastLine text = after.reverse := by
      rw [htext, lastLine_append_newline, lastLine_of_notMem (by simpa using hafter)]
    exact .inr ⟨before.reverse, by rw [hline]; exact htext⟩
  · exact .inl h

/-- The byte `place` is the first one after a beginning of the text. -/
def Boundary (text : List Char) (place : Nat) : Prop :=
  ∃ before, before <+: text ∧ place = byteLength before

theorem byteLength_eq_zero_iff : byteLength text = 0 ↔ text = [] := by
  cases text with
  | nil => simp
  | cons c text =>
      have hsize := c.utf8Size_pos
      simp
      omega

/-- Of two beginnings of a text, the one with fewer bytes begins the other. -/
theorem prefix_of_byteLength_le
    (ha : a <+: text) (hb : b <+: text) (h : byteLength a ≤ byteLength b) : a <+: b := by
  rcases List.prefix_or_prefix_of_prefix ha hb with hab | ⟨rest, rfl⟩
  · exact hab
  · have hrest : byteLength rest = 0 := by
      rw [byteLength_append] at h
      omega
    rw [byteLength_eq_zero_iff.mp hrest, List.append_nil]

theorem skipBytes?_append (count : Nat) (a b : List Char) :
    skipBytes? count (byteLength a) (a ++ b) = some (count + a.length, b) := by
  induction a generalizing count with
  | nil => simp [skipBytes?]
  | cons c a ih =>
      have hsize := c.utf8Size_pos
      obtain ⟨n, hn⟩ := Nat.exists_eq_add_one_of_ne_zero
        (show byteLength (c :: a) ≠ 0 by simp; omega)
      have hfits : c.utf8Size ≤ n + 1 := by
        rw [← hn]
        simp
      have hleft : n + 1 - c.utf8Size = byteLength a := by
        rw [← hn]
        simp
      rw [hn, List.cons_append, skipBytes?, if_pos hfits, hleft, ih, List.length_cons]
      congr 2
      omega

end Text

/-- The position after a text. -/
def Position.after (text : List Char) : Position :=
  ⟨Text.byteLength text, 1 + text.count '\n', 1 + (Text.lastLine text).length⟩

/-- A position between two characters of a text. -/
def Position.Names (p : Position) (text : List Char) : Prop :=
  ∃ before, before <+: text ∧ p = .after before

namespace Point

def after (before rest : List Char) : Point :=
  ⟨Text.byteLength before, (Text.lastLine before).length, some rest⟩

theorem skip?_after (near far rest : List Char) :
    (after near (far ++ rest)).skip? (Text.byteLength (near ++ far)) =
      some (far.length, rest) := by
  have hbytes : Text.byteLength (near ++ far) - Text.byteLength near = Text.byteLength far := by
    rw [Text.byteLength_append]
    omega
  have hskip := Text.skipBytes?_append 0 far rest
  rw [Nat.zero_add] at hskip
  simp only [skip?, after, hbytes, Option.bind_some, hskip]

theorem getElem?_lineStarts (offset : Nat) (lines rest : List Char) :
    (lineStarts offset (lines ++ '\n' :: rest))[lines.count '\n']? =
      some ⟨offset + Text.byteLength lines + 1, 0, some rest⟩ := by
  induction lines generalizing offset with
  | nil => rfl
  | cons c lines ih =>
      rw [List.cons_append, lineStarts]
      by_cases hc : c = '\n'
      · have hsize : '\n'.utf8Size = 1 := rfl
        rw [if_pos hc, hc, List.count_cons_self, List.getElem?_cons_succ, ih,
          Text.byteLength_cons, hsize, Nat.add_assoc offset]
      · rw [if_neg hc, List.count_cons_of_ne hc, ih, Text.byteLength_cons, Nat.add_assoc offset]

theorem lt_of_mem_lineStarts
    {offset : Nat} {text : List Char} {p : Point} (h : p ∈ lineStarts offset text) :
    offset < p.offset := by
  induction text generalizing offset with
  | nil => contradiction
  | cons c text ih =>
      rw [lineStarts] at h
      split at h
      · rcases List.mem_cons.mp h with rfl | hrest
        · simp
        · have hlt := ih hrest
          omega
      · have hlt := ih h
        omega

/-- As many lines start at or before an offset as line feeds stand before it. -/
theorem any_lineStarts (offset : Nat) (before rest : List Char) (i : Nat) :
    (lineStarts offset (before ++ rest))[i]?.any
        (·.offset ≤ offset + Text.byteLength before) = decide (i < before.count '\n') := by
  induction before generalizing offset i with
  | nil =>
      cases hget : (lineStarts offset rest)[i]? with
      | none => simp [hget]
      | some p =>
          have hlt := lt_of_mem_lineStarts (List.mem_of_getElem? hget)
          simp [hget]
          omega
  | cons c before ih =>
      rw [List.cons_append, lineStarts]
      by_cases hc : c = '\n'
      · have hsize : '\n'.utf8Size = 1 := rfl
        rw [if_pos hc, hc, List.count_cons_self, Text.byteLength_cons, hsize]
        cases i with
        | zero => simp
        | succ i => simpa [Nat.add_assoc] using ih (offset + 1) i
      · rw [if_neg hc, List.count_cons_of_ne hc, Text.byteLength_cons, ← Nat.add_assoc]
        exact ih _ i

end Point

theorem partitionPoint_eq
    {p : Nat → Bool} {low high k : Nat} (hlow : low ≤ k) (hhigh : k ≤ high)
    (hp : ∀ i, low ≤ i → i < high → p i = decide (i < k)) :
    partitionPoint p low high = k := by
  fun_induction partitionPoint p low high with
  | case1 low high hlt middle hmiddle ih =>
      have hsplit := hp middle (by omega) (by omega)
      have hk : middle < k := by simpa [hmiddle] using hsplit
      exact ih (by omega) hhigh fun i hi => hp i (by omega)
  | case2 low high hlt middle hmiddle ih =>
      have hsplit := hp middle (by omega) (by omega)
      have hk : ¬middle < k := by simpa [hmiddle] using hsplit
      exact ih hlow (by omega) fun i hi hi' => hp i hi (by omega)
  | case3 low high hge => omega

/-- A stateful computation answers with one value from every state of a kind,
and stays in states of this kind. -/
def Answers {σ α : Type} (kind : σ → Prop) (x : StateM σ α) (a : α) : Prop :=
  ∀ s, kind s → (x.run s).1 = a ∧ kind (x.run s).2

namespace Answers

variable {σ α β : Type} {kind : σ → Prop} {x : StateM σ α} {a : α}

theorem pure : Answers kind (pure a) a :=
  fun _ hs => ⟨rfl, hs⟩

theorem bind
    {f : α → StateM σ β} {b : β} (hx : Answers kind x a) (hf : Answers kind (f a) b) :
    Answers kind (x >>= f) b := by
  intro s hs
  obtain ⟨ha, hs'⟩ := hx s hs
  have hrun : (x >>= f).run s = (f (x.run s).1).run (x.run s).2 := rfl
  rw [hrun, ha]
  exact hf _ hs'

theorem map (hx : Answers kind x a) (f : α → β) : Answers kind (f <$> x) (f a) := by
  rw [map_eq_pure_bind]
  exact hx.bind pure

theorem mapM
    {f : α → StateM σ β} {g : α → β} {as : List α} (h : ∀ a ∈ as, Answers kind (f a) (g a)) :
    Answers kind (as.mapM f) (as.map g) := by
  induction as with
  | nil => exact pure
  | cons a as ih =>
      rcases List.forall_mem_cons.mp h with ⟨hhead, hmore⟩
      rw [List.mapM_cons]
      exact hhead.bind ((ih hmore).bind pure)

end Answers

namespace Locator

/-- A locator that knows the lines of a text and whose cursor is in the text. -/
structure Coherent (loc : Locator) (text : List Char) : Prop where
  size : loc.size = Text.byteLength text
  lines : loc.lines = (.ofText text :: Point.lineStarts 0 text).toArray
  cursor : ∃ before rest, text = before ++ rest ∧ loc.cursor = .after before rest

theorem coherent_ofText (text : List Char) : (ofText text).Coherent text := by
  have hsize : (ofText text).size = Text.byteLength text := by
    rw [Text.byteLength, List.sum, List.foldr_map]
    rfl
  exact ⟨hsize, rfl, [], text, rfl, rfl⟩

/-- Neither the cursor nor the line of an offset helps to count characters, so
that bytes are counted. -/
def CountsBytes (loc : Locator) (offset : Nat) : Prop :=
  (loc.origin (loc.lineStart (loc.lineOf offset)) offset).skip? offset = none

variable {loc : Locator} {before rest : List Char}

theorem Coherent.getElem?_lines {text : List Char} (h : loc.Coherent text) (i : Nat) :
    loc.lines[i]? = (.ofText text :: Point.lineStarts 0 text)[i]? := by
  rw [h.lines]
  exact List.getElem?_toArray

theorem Coherent.any_lines (h : loc.Coherent (before ++ rest)) (i : Nat) :
    (loc.lines[i]?).any (·.offset ≤ Text.byteLength before) =
      decide (i < 1 + before.count '\n') := by
  rw [h.getElem?_lines]
  cases i with
  | zero => simp [Point.ofText]
  | succ i =>
      have hstarts := Point.any_lineStarts 0 before rest i
      rw [Nat.zero_add] at hstarts
      rw [List.getElem?_cons_succ, hstarts]
      simp [Nat.add_comm 1]

/-- The line of an offset is in the table. -/
theorem Coherent.count_lt_size (h : loc.Coherent (before ++ rest)) :
    before.count '\n' < loc.lines.size := by
  have hlast := h.any_lines (before.count '\n')
  by_contra hle
  rw [Array.getElem?_eq_none (by omega)] at hlast
  simp at hlast

theorem Coherent.lineOf_eq (h : loc.Coherent (before ++ rest)) :
    loc.lineOf (Text.byteLength before) = 1 + before.count '\n' := by
  have hsize := h.count_lt_size
  exact partitionPoint_eq (Nat.zero_le _) (by omega) fun i _ _ => h.any_lines i

/-- The line that a text ends on is found by where it starts. -/
theorem Coherent.exists_lineStart (h : loc.Coherent (before ++ rest)) :
    ∃ lines, before = lines ++ Text.lastLine before ∧ Text.lastLine lines = [] ∧
      loc.lineStart (1 + before.count '\n') = .after lines (Text.lastLine before ++ rest) := by
  have hget : ∀ p, loc.lines[before.count '\n']? = some p →
      loc.lineStart (1 + before.count '\n') = p := by
    intro p hp
    simp [lineStart, Array.getD_eq_getD_getElem?, hp]
  have htable := h.getElem?_lines (before.count '\n')
  have hlast := Text.newline_notMem_lastLine before
  rcases Text.exists_lastLine before with hnone | ⟨lines, hlines⟩
  · refine ⟨[], by simp [Text.lastLine_of_notMem hnone], rfl, hget _ ?_⟩
    rw [htable, List.count_eq_zero_of_not_mem hnone, Text.lastLine_of_notMem hnone]
    rfl
  · generalize Text.lastLine before = last at hlines hlast ⊢
    subst hlines
    have hcount : (lines ++ '\n' :: last).count '\n' = lines.count '\n' + 1 := by
      simp [List.count_eq_zero_of_not_mem hlast]
    have hline : Text.lastLine (lines ++ ['\n']) = [] := Text.lastLine_append_newline lines []
    refine ⟨lines ++ ['\n'], by simp, hline, hget _ ?_⟩
    rw [htable, hcount, List.getElem?_cons_succ, List.append_assoc, List.cons_append,
      Point.getElem?_lineStarts, Point.after, hline, Text.byteLength_append, Nat.zero_add]
    rfl

/-- Characters are counted on from a point on the line that a text ends on. -/
theorem Coherent.exists_origin (h : loc.Coherent (before ++ rest)) :
    ∃ near far, before = near ++ far ∧ '\n' ∉ far ∧
      loc.origin (loc.lineStart (1 + before.count '\n')) (Text.byteLength before) =
        .after near (far ++ rest) := by
  obtain ⟨lines, hbefore, -, hstart⟩ := h.exists_lineStart
  rw [hstart, origin]
  split
  · next hline =>
      -- The cursor is between the start of the line and the offset.
      rcases h.cursor with ⟨near, tail, htext, hcursor⟩
      rw [hcursor] at hline ⊢
      obtain ⟨far, rfl⟩ : near <+: before :=
        Text.prefix_of_byteLength_le ⟨tail, htext.symm⟩ (List.prefix_append _ _) hline.2
      obtain ⟨mid, rfl⟩ : lines <+: near :=
        Text.prefix_of_byteLength_le ⟨_, hbefore.symm⟩ (List.prefix_append _ _) hline.1
      have hlast : Text.lastLine (lines ++ mid ++ far) = mid ++ far := by
        rw [List.append_assoc] at hbefore ⊢
        exact (List.append_cancel_left hbefore).symm
      have hnewline := Text.newline_notMem_lastLine (lines ++ mid ++ far)
      rw [hlast] at hnewline
      have htail : tail = far ++ rest := by
        rw [List.append_assoc] at htext
        exact (List.append_cancel_left htext).symm
      exact ⟨lines ++ mid, far, rfl, fun hmem => hnewline (List.mem_append_right _ hmem),
        by rw [htail]⟩
  · exact ⟨lines, _, hbefore, Text.newline_notMem_lastLine before, rfl⟩

/-- A lookup at a character boundary finds the position that counting finds. -/
theorem Coherent.locate_eq (h : loc.Coherent (before ++ rest)) :
    (locate (Text.byteLength before)).run loc =
      (.after before, { loc with cursor := .after before rest }) := by
  obtain ⟨near, far, rfl, hfar, horigin⟩ := h.exists_origin
  have hbound : min (Text.byteLength (near ++ far)) loc.size = Text.byteLength (near ++ far) := by
    rw [h.size, Text.byteLength_append (near ++ far)]
    omega
  have hcolumn : (Text.lastLine near).length + far.length =
      (Text.lastLine (near ++ far)).length := by
    rw [Text.lastLine_append hfar, List.length_append]
  have hline := h.lineOf_eq
  have hskip := Point.skip?_after near far rest
  simp only [StateT.run, locate, hbound, hline, horigin, hskip]
  simp only [Point.after, Position.after, hcolumn, Nat.add_comm 1]

theorem Coherent.not_countsBytes (h : loc.Coherent (before ++ rest)) :
    ¬loc.CountsBytes (Text.byteLength before) := by
  obtain ⟨near, far, rfl, -, horigin⟩ := h.exists_origin
  rw [CountsBytes, h.lineOf_eq, horigin, Point.skip?_after]
  simp

theorem Coherent.locate (h : loc.Coherent (before ++ rest)) :
    ((Locator.locate (Text.byteLength before)).run loc).2.Coherent (before ++ rest) := by
  rw [h.locate_eq]
  exact ⟨h.size, h.lines, before, rest, rfl, rfl⟩

theorem answers_locate {before text : List Char} (h : before <+: text) :
    Answers (Coherent · text) (Locator.locate (Text.byteLength before)) (.after before) := by
  obtain ⟨rest, rfl⟩ := h
  intro loc hloc
  exact ⟨by rw [hloc.locate_eq], hloc.locate⟩

/-- Any sequence of lookups at character boundaries finds the positions that
counting finds. -/
theorem answers_mapM_locate
    {text : List Char} {befores : List (List Char)} (h : ∀ before ∈ befores, before <+: text) :
    Answers (Coherent · text) ((befores.map Text.byteLength).mapM Locator.locate)
      (befores.map Position.after) := by
  rw [List.mapM_map]
  exact .mapM fun before hbefore => answers_locate (h before hbefore)

end Locator

/-- The position of a character boundary is found by counting. -/
theorem Position.locate_eq {before text : List Char} (h : before <+: text) :
    locate text (Text.byteLength before) = .after before := by
  obtain ⟨rest, rfl⟩ := h
  rw [locate, (Locator.coherent_ofText _).locate_eq]

end ContrastLint
