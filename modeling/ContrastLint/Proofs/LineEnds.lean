import ContrastLint.Proofs.PaddedComments
import ContrastLint.Proofs.PaddedNodes
import ContrastLint.Proofs.Pruning

/-!
# Line ends

A stylesheet whose lines end with a carriage return and a line feed is read and
linted like the one whose lines end with line feeds alone.  There is one exception.
In a quoted string a backslash hides the character after it, and a hidden line feed
does not end the line; but of the two characters of the longer line end only the
first one is hidden, and the second one breaks the string.
-/

namespace ContrastLint

open Text (SameLine)

/-- The stylesheet with a carriage return before every line feed. -/
def crlfEnds (css : String) : String :=
  .ofList (Text.crlf css.toList)

/-- In some string of the stylesheet a backslash comes just before a line feed. -/
def HidesLine (css : String) : Prop :=
  Comment.Pass.sheet.Hides 0 css.toList

section Hides

namespace Comment.Pass

variable {p : Pass} {q : Quote} {offset : Nat} {c : Char} {text : List Char}

theorem enter_ne_escape (offset : Nat) (c : Char) (q : Quote) : enter offset c ≠ .escape q := by
  unfold enter
  cases Quote.ofChar? c with
  | some _ => simp
  | none =>
      simp only
      split <;> simp

theorem eq_backslash_of_next (h : p.next offset c = .escape q) : c = '\\' := by
  by_contra hc
  cases p with
  | sheet => exact enter_ne_escape offset c q h
  | slash opener =>
      simp only [next] at h
      split at h
      · contradiction
      · exact enter_ne_escape offset c q h
  | _ =>
      simp only [next, hc, if_false] at h
      repeat' split at h
      all_goals contradiction

theorem infix_of_hides
    (h : p.Hides offset text) :
    ((∃ q, p = .escape q) ∧ text.head? = some '\n') ∨ ['\\', '\n'] <:+: text := by
  induction text generalizing p offset with
  | nil =>
      obtain ⟨before, rest, q, htext, -⟩ := h
      simp at htext
  | cons c text ih =>
      rcases hides_cons.mp h with ⟨rfl, hp⟩ | hlater
      · exact .inl ⟨hp, rfl⟩
      · rcases ih hlater with ⟨⟨q, hq⟩, hhead⟩ | hinfix
        · obtain ⟨rest, rfl⟩ := List.head?_eq_some_iff.mp hhead
          obtain rfl := eq_backslash_of_next hq
          exact .inr ⟨[], rest, rfl⟩
        · exact .inr (List.infix_cons hinfix)

end Comment.Pass

end Hides

theorem HidesLine.backslash_newline_infix {css : String} (h : HidesLine css) :
    ['\\', '\n'] <:+: css.toList :=
  (Comment.Pass.infix_of_hides h).resolve_left fun ⟨⟨_, hq⟩, _⟩ => by contradiction

/-! ## Reading -/

def Position.SameLine (p q : Position) : Prop :=
  p.line = q.line

/-- The same defect on the same line. -/
structure ParseError.SameLine (e e' : ParseError) : Prop where
  defect : e.defect = e'.defect
  position : e.position.SameLine e'.position

section Reading

variable {css padded : List Char}

theorem Comment.sameLine_of_shows
    {text text' : List Char} {place place' : Nat} (h : blank css = .ok text)
    (h' : blank padded = .ok text') (hshows : Text.Shows 0 text place)
    (hshows' : Text.Shows 0 text' place') (hline : SameLine text text' place place') :
    SameLine css padded place place' := by
  rw [SameLine, line_locate_of_shows h hshows, line_locate_of_shows h' hshows', hline]

theorem Document.lockstep_read
    (hpadded : Text.Padded css padded) (hhides : ¬Comment.Pass.sheet.Hides 0 css) :
    Lockstep (Fault.Faces (SameLine css padded))
      (fun doc doc' => (doc.locate css).Padded Position.SameLine (doc'.locate padded))
      (read css) (read padded) := by
  refine (Comment.lockstep_blank hpadded hhides).bind fun text text' hblank hblank' htext => ?_
  refine (lockstep_ofBlanked htext (Comment.exposes_of_blank hblank hhides)).mono ?_ ?_
  · intro fault fault' h h' hfaces
    exact ⟨hfaces.defect, Comment.sameLine_of_shows hblank hblank'
      (shows_of_ofBlanked_eq_error h) (shows_of_ofBlanked_eq_error h') hfaces.offset⟩
  · intro doc doc' h h' hdocs
    have hread : read css = .ok doc := bind_eq_ok_iff.mpr ⟨text, hblank, h⟩
    have hread' : read padded = .ok doc' := bind_eq_ok_iff.mpr ⟨text', hblank', h'⟩
    rw [locate_eq_map (boundary_of_read hread), locate_eq_map (boundary_of_read hread')]
    refine hdocs.map fun place hplace place' hplace' hline => ?_
    exact Comment.sameLine_of_shows hblank hblank' (shows_of_ofBlanked h place hplace)
      (shows_of_ofBlanked h' place' hplace') hline

end Reading

theorem lockstep_parse
    {css padded : String} (hpadded : Text.Padded css.toList padded.toList)
    (hhides : ¬HidesLine css) :
    Lockstep ParseError.SameLine (Document.Padded Position.SameLine) (parse css) (parse padded) := by
  have hread := Document.lockstep_read hpadded hhides
  unfold parse
  revert hread
  generalize Document.read css.toList = x
  generalize Document.read padded.toList = y
  intro hread
  cases hread with
  | ok hdocs => exact .ok hdocs
  | error hfaces => exact .error ⟨hfaces.defect, hfaces.offset⟩

/-! ## Rules -/

section Rules

variable {α β : Type} {R : α → β → Prop}

theorem Rgb.ofText?_padded {text padded : List Char} (h : Text.Padded text padded) :
    ofText? padded = ofText? text := by
  have htrim := h.trim
  by_cases hline : '\n' ∈ Text.trim text
  · have hline' : '\n' ∈ Text.trim padded := (htrim.mem_iff Text.not_pad_newline).mpr hline
    rw [ofText?_of_mem hline (by decide) (by decide), ofText?_of_mem hline' (by decide) (by decide)]
  · rw [ofText?, ofText?, htrim.eq_of_notMem hline]

theorem Assignment.newline_notMem_of_isNamed
    {a : Assignment} {name : String} (h : a.isNamed name = true)
    (hname : '\n' ∉ name.toList.map Char.toLower) : '\n' ∉ a.property.toList := by
  intro hmem
  have hlower : a.property.toList.map Char.toLower = name.toList.map Char.toLower := by
    simpa [isNamed, Text.equalsIgnoringCase] using h
  rw [← hlower] at hname
  exact hname (List.mem_map.mpr ⟨'\n', hmem, by decide⟩)

theorem Assignment.Padded.isNamed_eq
    {a b : Assignment} (h : a.Padded b) {name : String}
    (hname : '\n' ∉ name.toList.map Char.toLower) : a.isNamed name = b.isNamed name := by
  have hsame : '\n' ∉ a.property.toList → a.isNamed name = b.isNamed name := by
    intro hline
    rw [isNamed, isNamed, Text.equalsIgnoringCase, Text.equalsIgnoringCase,
      h.property.eq_of_notMem hline]
  have hline := h.property.mem_iff Text.not_pad_newline
  -- A property with a line feed may be padded, but then neither text has the name.
  rw [Bool.eq_iff_iff]
  constructor
  · intro ha
    rwa [← hsame (newline_notMem_of_isNamed ha hname)]
  · intro hb
    rwa [hsame (hline.not.mp (newline_notMem_of_isNamed hb hname))]

theorem Assignment.Padded.setsForeground_eq {a b : Assignment} (h : a.Padded b) :
    a.setsForeground = b.setsForeground :=
  h.isNamed_eq (by decide)

theorem Assignment.Padded.setsBackground_eq {a b : Assignment} (h : a.Padded b) :
    a.setsBackground = b.setsBackground := by
  rw [setsBackground, setsBackground, h.isNamed_eq (by decide), h.isNamed_eq (by decide)]

namespace Rule.Padded

variable {r : Rule α} {s : Rule β}

theorem slotColors_eq (h : r.Padded R s) :
    slotColor? (resolveSlot r.slots.foreground) = slotColor? (resolveSlot s.slots.foreground) ∧
      slotColor? (resolveSlot r.slots.background) =
        slotColor? (resolveSlot s.slots.background) := by
  refine slotColors_eq_of_forall₂ h.declarations ?foreground ?background ?color
  case foreground => exact fun _ _ hde => hde.assignment.setsForeground_eq
  case background => exact fun _ _ hde => hde.assignment.setsBackground_eq
  case color => exact fun _ _ hde => (Rgb.ofText?_padded hde.assignment.value).symm

theorem fillsSlot_iff (h : r.Padded R s) : r.FillsSlot ↔ s.FillsSlot := by
  have hany : ∀ {γ : Type} (r : Rule γ), r.FillsSlot ↔
      (r.declarations.any fun d => d.setsForeground || d.setsBackground) = true := by
    intro γ r
    simp [FillsSlot]
  rw [hany, hany, any_of_forall₂ h.declarations fun d e hde => by
    rw [hde.assignment.setsForeground_eq, hde.assignment.setsBackground_eq]]

end Rule.Padded

end Rules

/-! ## Reports -/

/-- Two results tell the same colours, ratio and grade of rules on the same line. -/
structure ContrastResult.Tallies (r s : ContrastResult) : Prop where
  selector : Text.Padded r.selector.toList s.selector.toList
  line : r.line = s.line
  foreground : r.foreground = s.foreground
  background : r.background = s.background
  ratio : r.contrast.ratio? = s.contrast.ratio?
  passes : r.passes = s.passes

structure LintReport.Tallies (report other : LintReport) : Prop where
  status : report.status = other.status
  results : List.Forall₂ ContrastResult.Tallies report.results other.results

/-- The text is refused for the same reason, and on the same line. -/
inductive LintError.SameLine : LintError → LintError → Prop
  | emptyInput : LintError.SameLine .emptyInput .emptyInput
  | unreadable {e e' : ParseError} (h : e.SameLine e') :
      LintError.SameLine (.unreadable e) (.unreadable e')

theorem ContrastResult.Tallies.fails_eq {r s : ContrastResult} (h : r.Tallies s) :
    r.fails = s.fails := by
  rw [fails, fails, isEvaluated, isEvaluated, Contrast.isComputed_eq, Contrast.isComputed_eq,
    h.ratio, h.passes]

theorem Rule.Padded.tallies
    {r s : Rule Position} (h : r.Padded Position.SameLine s) (threshold : Float) :
    (r.evaluate threshold).value.Tallies (s.evaluate threshold).value := by
  obtain ⟨hforeground, hbackground⟩ := h.slotColors_eq
  obtain ⟨hratio, hpasses⟩ := measures_eq_of_slotColors threshold hforeground hbackground
  exact ⟨h.selector, h.place, hforeground, hbackground, hratio, hpasses⟩

namespace Document.Padded

variable {α β : Type} {R : α → β → Prop}

theorem rules {doc : Document α} {doc' : Document β} (h : doc.Padded R doc') :
    List.Forall₂ (Rule.Padded R) doc.rules doc'.rules := by
  refine List.rel_filterMap (fun n m hnode => ?_) h
  cases hnode with
  | rule hrule => exact .some hrule
  | _ => exact .none

theorem declarations {doc : Document α} {doc' : Document β} (h : doc.Padded R doc') :
    List.Forall₂ (Declaration.Padded R) doc.declarations doc'.declarations := by
  refine List.rel_flatMap h fun n m hnode => ?_
  cases hnode with
  | rule hrule => exact hrule.declarations
  | declaration hdeclaration => exact .cons hdeclaration .nil
  | atRule => exact .nil

theorem declaresColor_eq {doc : Document α} {doc' : Document β} (h : doc.Padded R doc') :
    doc.declaresColor = doc'.declaresColor :=
  any_of_forall₂ h.declarations fun d e hde => by
    rw [hde.assignment.isNamed_eq (by decide), hde.assignment.isNamed_eq (by decide)]

variable {doc doc' : Document Position}

theorem tallies_results (h : doc.Padded Position.SameLine doc') (threshold : Float) :
    List.Forall₂ ContrastResult.Tallies (Rule.results doc.pruned.rules threshold)
      (Rule.results doc'.pruned.rules threshold) := by
  rw [results_pruned, results_pruned]
  have hfilter : List.Forall₂ (Rule.Padded Position.SameLine)
      (doc.rules.filter (·.FillsSlot)) (doc'.rules.filter (·.FillsSlot)) :=
    List.rel_filter (fun r s hrule => by simpa using hrule.fillsSlot_iff) h.rules
  exact forall₂_map_of_mem hfilter fun _ _ _ _ hrule => hrule.tallies threshold

theorem tallies_lint (h : doc.Padded Position.SameLine doc') (config : LintConfig) :
    (doc.lint config).value.Tallies (doc'.lint config).value := by
  have hresults := h.tallies_results config.threshold
  have hfails := any_of_forall₂ hresults fun _ _ htallies => htallies.fails_eq
  rw [value_lint, value_lint, h.declaresColor_eq]
  cases doc'.declaresColor with
  | false => exact ⟨rfl, .nil⟩
  | true => exact ⟨by simp [LintReport.status, hfails], hresults⟩

end Document.Padded

theorem lockstep_lint
    {css padded : String} (config : LintConfig) (hpadded : Text.Padded css.toList padded.toList)
    (hhides : ¬HidesLine css) :
    Lockstep LintError.SameLine LintReport.Tallies (lint config css).value
      (lint config padded).value := by
  have hempty : Text.trim padded.toList = [] ↔ Text.trim css.toList = [] := by
    rw [Text.trim_eq_nil_iff, Text.trim_eq_nil_iff, hpadded.white_iff]
  by_cases hblank : Text.trim css.toList = []
  · rw [value_lint_of_white config hblank, value_lint_of_white config (hempty.mpr hblank)]
    exact .error .emptyInput
  · have hblank' := hempty.not.mpr hblank
    rcases (lockstep_parse hpadded hhides).cases with
      ⟨doc, doc', hparse, hparse', hdocs⟩ | ⟨e, e', hparse, hparse', he⟩
    · rw [value_lint_of_parse config hblank hparse, value_lint_of_parse config hblank' hparse']
      exact .ok (hdocs.tallies_lint config)
    · rw [value_lint_of_error config hblank hparse, value_lint_of_error config hblank' hparse']
      exact .error (.unreadable he)

/-! ## Stylesheets with the longer line ends -/

theorem toList_crlfEnds (css : String) : (crlfEnds css).toList = Text.crlf css.toList :=
  String.toList_ofList

theorem padded_crlfEnds (css : String) : Text.Padded css.toList (crlfEnds css).toList := by
  rw [toList_crlfEnds]
  exact Text.padded_crlf css.toList

namespace HidesLine

variable {css : String}

theorem exists_parse_crlfEnds (h : HidesLine css) : ∃ e, parse (crlfEnds css) = .error e := by
  cases hparse : parse (crlfEnds css) with
  | error e => exact ⟨e, rfl⟩
  | ok doc =>
      obtain ⟨raw, hread, -⟩ := parse_eq_ok_iff.mp hparse
      rw [toList_crlfEnds] at hread
      obtain ⟨text, hblank, hraw⟩ := bind_eq_ok_iff.mp hread
      obtain ⟨pieces, -, hpieces, -, -⟩ := Document.ofBlanked_eq_ok_iff.mp hraw
      have hbroken := Comment.broken_of_blank hblank h
      rw [hpieces.after_eq_outside] at hbroken
      contradiction

theorem trim_crlfEnds_ne_nil (h : HidesLine css) : Text.trim (crlfEnds css).toList ≠ [] := by
  rw [ne_eq, Text.trim_eq_nil_iff, (padded_crlfEnds css).white_iff]
  intro hwhite
  have hmem : '\\' ∈ css.toList := h.backslash_newline_infix.subset (by simp)
  exact absurd (hwhite '\\' hmem) (by decide)

end HidesLine

/-- The longer line ends change nothing that the linter tells, but where a string hides
a line feed they are refused. -/
theorem lockstep_or_refused_crlfEnds (css : String) :
    (¬HidesLine css →
      Lockstep ParseError.SameLine (Document.Padded Position.SameLine) (parse css)
          (parse (crlfEnds css)) ∧
        ∀ config, Lockstep LintError.SameLine LintReport.Tallies (lint config css).value
          (lint config (crlfEnds css)).value) ∧
      (HidesLine css →
        ∃ e, parse (crlfEnds css) = .error e ∧
          ∀ config, (lint config (crlfEnds css)).value = .error (.unreadable e)) := by
  have hpadded := padded_crlfEnds css
  constructor
  · intro hhides
    exact ⟨lockstep_parse hpadded hhides, fun config => lockstep_lint config hpadded hhides⟩
  · intro hhides
    obtain ⟨e, he⟩ := hhides.exists_parse_crlfEnds
    exact ⟨e, he, fun config => value_lint_of_error config hhides.trim_crlfEnds_ne_nil he⟩

/-- The case of a comment over two lines, with a string that hides a quote, and the case
of a string over two lines. -/
theorem lockstep_crlfEnds_or_refused_over_lines :
    (¬HidesLine "/*\n*/p\x7bq:'\\''\n\x7d" ∧
      ∀ config, Lockstep LintError.SameLine LintReport.Tallies
        (lint config "/*\n*/p\x7bq:'\\''\n\x7d").value
        (lint config (crlfEnds "/*\n*/p\x7bq:'\\''\n\x7d")).value) ∧
      HidesLine "p\x7bq:'\\\n'\x7d" ∧ ∃ e, parse (crlfEnds "p\x7bq:'\\\n'\x7d") = .error e := by
  have hshows : ¬HidesLine "/*\n*/p\x7bq:'\\''\n\x7d" := by
    intro hhides
    exact absurd hhides.backslash_newline_infix (by decide +kernel)
  have hhides : HidesLine "p\x7bq:'\\\n'\x7d" :=
    ⟨"p\x7bq:'\\".toList, "'\x7d".toList, .single, by decide +kernel, by decide +kernel⟩
  obtain ⟨e, he, -⟩ := (lockstep_or_refused_crlfEnds "p\x7bq:'\\\n'\x7d").2 hhides
  exact ⟨⟨hshows, ((lockstep_or_refused_crlfEnds _).1 hshows).2⟩, hhides, e, he⟩

/-- A stylesheet without carriage returns is read, but refused with the longer line ends. -/
theorem exists_crlfEnds_refused :
    ∃ css doc e, '\r' ∉ css.toList ∧ parse css = .ok doc ∧ parse (crlfEnds css) = .error e ∧
      e.defect = .unclosedString := by
  refine ⟨"p\x7bq:'\\\n'\x7d", ⟨[.rule ⟨"p", [⟨⟨"q", "'\\\n'", false⟩, ⟨2, 1, 3⟩⟩], ⟨0, 1, 1⟩⟩]⟩,
    ⟨.unclosedString, ⟨4, 1, 5⟩⟩, by decide +kernel, by decide +kernel, by decide +kernel, rfl⟩

end ContrastLint
