import ContrastLint.Proofs.Lockstep
import ContrastLint.Proofs.Padding

/-!
# Nodes of a padded text

A padded text that hides no line feed is made up of the same pieces, each of them
padded.  They yield the same nodes on the same lines, and what the nodes say is
padded in turn; so where it has no line feed it is the same.  If the text is not
made up of pieces, the same fault is found on the same line.
-/

namespace ContrastLint

open Text (Pad SameLine Abreast)

/-! ## Assignments -/

namespace Assignment

variable {text text' mark mark' value value' : List Char}

structure Padded (a b : Assignment) : Prop where
  property : Text.Padded a.property.toList b.property.toList
  value : Text.Padded a.value.toList b.value.toList
  important : b.important = a.important

theorem newline_notMem_important {word : List Char}
    (h : word.map Char.toLower = "important".toList) : '\n' ∉ word := by
  intro hmem
  exact absurd (isWhite_of_mem_important h hmem) (by decide)

theorem Mark.padded (hmark : Mark mark) (h : Text.Padded mark mark') : Mark mark' := by
  rcases hmark with ⟨before, inside, word, hbefore, hinside, hword, rfl⟩
  obtain ⟨before', rest, rfl, hbefore', hrest⟩ := h.exists_append_cons (by decide)
  obtain ⟨inside', word', rfl, hinside', hword'⟩ := hrest.exists_append
  obtain rfl := hword'.eq_of_notMem (newline_notMem_important hword)
  exact ⟨before', inside', _, hbefore'.white_iff.mpr hbefore, hinside'.white_iff.mpr hinside,
    hword, rfl⟩

/-- A text ends with a mark if it does so when it is padded. -/
theorem exists_mark_of_padded
    {stem' : List Char} (h : Text.Padded value (stem' ++ mark')) (hmark : Mark mark') :
    ∃ stem mark, Mark mark ∧ value = stem ++ mark := by
  rcases hmark with ⟨before', inside', word, hbefore, hinside, hword, rfl⟩
  obtain ⟨c, letters, rfl⟩ : ∃ c letters, word = c :: letters := by
    cases word with
    | nil => simp at hword
    | cons c letters => exact ⟨c, letters, rfl⟩
  have hc : Text.isWhite c = false := head?_of_important hword c rfl
  rw [← List.append_assoc] at h
  obtain ⟨stem, rest, rfl, -, hrest⟩ := h.exists_of_append_cons rfl
  obtain ⟨inside, others, rfl, hinside', hothers⟩ := hrest.exists_of_append_cons hc
  have hline : '\n' ∉ others := by
    rw [← hothers.mem_iff Text.not_pad_newline]
    exact fun hmem => newline_notMem_important hword (List.mem_cons_of_mem _ hmem)
  obtain rfl := hothers.eq_of_notMem hline
  exact ⟨stem, _, ⟨[], inside, _, Text.white_nil, hinside'.white_iff.mp hinside, hword, rfl⟩, rfl⟩

theorem rel_importantStem? (h : Text.Padded value value') (hvalue : Text.Trimmed value) :
    Option.Rel Text.Padded (importantStem? value) (importantStem? value') := by
  cases hstem : importantStem? value with
  | some stem =>
      have htrimmed := trimmed_of_importantStem? hvalue hstem
      obtain ⟨mark, hmark, rfl⟩ := mark_of_importantStem? hstem
      obtain ⟨stem', mark', rfl, hstem', hmark'⟩ := h.exists_append
      rw [importantStem?_append (hmark.padded hmark') (hstem'.trimmed htrimmed)]
      exact .some hstem'
  | none =>
      cases hstem' : importantStem? value' with
      | none => exact .none
      | some stem' =>
          obtain ⟨mark', hmark', rfl⟩ := mark_of_importantStem? hstem'
          obtain ⟨front, mark, hmark, rfl⟩ := exists_mark_of_padded h hmark'
          rw [importantStem?_append_mark front hmark] at hstem
          contradiction

/-- A padded text says the same, padded. -/
theorem rel_read? (h : Text.Padded text text') :
    Option.Rel Padded (read? text) (read? text') := by
  rcases exists_first_colon text with hnone | ⟨left, right, hleft, rfl⟩
  · have hnone' : ':' ∉ text' := by
      rwa [h.mem_iff (Text.not_pad_of_isWhite rfl)]
    rw [read?_of_notMem hnone, read?_of_notMem hnone']
    exact .none
  · obtain ⟨left', right', rfl, hproperty, hright⟩ := h.exists_append_cons (by decide)
    have hleft' : ':' ∉ left' := by
      rwa [hproperty.mem_iff (Text.not_pad_of_isWhite rfl)]
    have hempty : Text.trim left' = [] ↔ Text.trim left = [] := by
      rw [Text.trim_eq_nil_iff, Text.trim_eq_nil_iff, hproperty.white_iff]
    rw [read?_append hleft, read?_append hleft']
    by_cases hblank : Text.trim left = []
    · rw [if_pos hblank, if_pos (hempty.mpr hblank)]
      exact .none
    · rw [if_neg hblank, if_neg (hempty.not.mpr hblank)]
      have hstem := rel_importantStem? hright.trim (Text.trimmed_trim right)
      revert hstem
      generalize importantStem? (Text.trim right) = stem
      generalize importantStem? (Text.trim right') = stem'
      intro hstem
      cases hstem with
      | none =>
          refine .some ⟨?_, ?_, rfl⟩
          · simpa using hproperty.trim
          · simpa using hright.trim
      | some hstem =>
          refine .some ⟨?_, ?_, rfl⟩
          · simpa using hproperty.trim
          · simpa using hstem

end Assignment

/-! ## Nodes -/

section Nodes

variable {α β γ δ : Type} {R : α → β → Prop} {S : γ → δ → Prop} {f : α → γ} {g : β → δ}

structure Declaration.Padded (R : α → β → Prop) (d : Declaration α) (e : Declaration β) :
    Prop where
  assignment : d.toAssignment.Padded e.toAssignment
  place : R d.place e.place

structure Rule.Padded (R : α → β → Prop) (r : Rule α) (s : Rule β) : Prop where
  selector : Text.Padded r.selector.toList s.selector.toList
  declarations : List.Forall₂ (Declaration.Padded R) r.declarations s.declarations
  place : R r.place s.place

structure AtRule.Padded (R : α → β → Prop) (a : AtRule α) (b : AtRule β) : Prop where
  name : b.name = a.name
  params : Text.Padded a.params.toList b.params.toList
  block : Option.Rel (fun x y => Text.Padded x.toList y.toList) a.block b.block
  place : R a.place b.place

/-- The second node says what the first one says, padded, and their places are
related. -/
inductive Node.Padded (R : α → β → Prop) : Node α → Node β → Prop
  | rule {r : Rule α} {s : Rule β} (h : r.Padded R s) : Node.Padded R (.rule r) (.rule s)
  | declaration {d : Declaration α} {e : Declaration β} (h : d.Padded R e) :
      Node.Padded R (.declaration d) (.declaration e)
  | atRule {a : AtRule α} {b : AtRule β} (h : a.Padded R b) : Node.Padded R (.atRule a) (.atRule b)

def Document.Padded (R : α → β → Prop) (doc : Document α) (doc' : Document β) : Prop :=
  List.Forall₂ (Node.Padded R) doc.nodes doc'.nodes

theorem Node.Padded.map
    {n : Node α} {m : Node β} (h : n.Padded R m)
    (hfg : ∀ x ∈ n.places, ∀ y ∈ m.places, R x y → S (f x) (g y)) :
    (n.map f).Padded S (m.map g) := by
  cases h with
  | rule h =>
      refine .rule ⟨h.selector, ?_, hfg _ List.mem_cons_self _ List.mem_cons_self h.place⟩
      refine forall₂_map_of_mem h.declarations fun d hd e he hpadded =>
        ⟨hpadded.assignment, ?_⟩
      exact hfg _ (List.mem_cons_of_mem _ (List.mem_map_of_mem hd)) _
        (List.mem_cons_of_mem _ (List.mem_map_of_mem he)) hpadded.place
  | declaration h =>
      exact .declaration
        ⟨h.assignment, hfg _ (List.mem_singleton.mpr rfl) _ (List.mem_singleton.mpr rfl) h.place⟩
  | atRule h =>
      exact .atRule ⟨h.name, h.params, h.block,
        hfg _ (List.mem_singleton.mpr rfl) _ (List.mem_singleton.mpr rfl) h.place⟩

theorem Document.Padded.map
    {doc : Document α} {doc' : Document β} (h : doc.Padded R doc')
    (hfg : ∀ x ∈ doc.places, ∀ y ∈ doc'.places, R x y → S (f x) (g y)) :
    (doc.map f).Padded S (doc'.map g) := by
  refine forall₂_map_of_mem h fun n hn m hm hpadded => hpadded.map fun x hx y hy => ?_
  exact hfg x (List.mem_flatMap.mpr ⟨n, hn, hx⟩) y (List.mem_flatMap.mpr ⟨m, hm, hy⟩)

end Nodes

theorem AtRule.padded_read
    {R : Nat → Nat → Prop} {text padded : List Char} {block block' : Option (List Char)}
    {place place' : Nat} (htext : Text.Padded text padded)
    (hblock : Option.Rel Text.Padded block block') (hplace : R place place') :
    (AtRule.read text block place).Padded R (AtRule.read padded block' place') := by
  have hends : ∀ w, Pad w → (!(Text.isWhite w || w == '(')) = !(Text.isWhite '\n' || '\n' == '(') :=
    fun w hw => by rw [hw.white]; rfl
  have hname := htext.trim.takeWhile hends
  constructor
  case name =>
    have hline : '\n' ∉ (Text.trim text).takeWhile fun c => !(Text.isWhite c || c == '(') :=
      fun hmem => absurd (List.mem_takeWhile_imp hmem) (by decide)
    exact congrArg String.ofList (hname.eq_of_notMem hline)
  case params => simpa [AtRule.read] using (htext.trim.dropWhile hends).trim
  case block =>
    cases hblock with
    | none => exact .none
    | some h => exact .some (by simpa using h)
  case place => exact hplace

/-! ## Pieces -/

inductive Ending.Padded : Ending → Ending → Prop
  | semicolon : Ending.Padded .semicolon .semicolon
  | block {body body' : List Char} (h : Text.Padded body body')
      (hexposes : Quoting.outside.Exposes body) : Ending.Padded (.block body) (.block body')
  | last : Ending.Padded .last .last

/-- A piece of a padded text is the padded piece of the text, and they begin on the
same line. -/
structure Piece.Padded (whole whole' : List Char) (p q : Piece) : Prop where
  text : Text.Padded p.text q.text
  ending : p.ending.Padded q.ending
  abreast : Abreast whole whole' p.offset q.offset p.source q.source

theorem Ending.Padded.body? {e e' : Ending} (h : e.Padded e') :
    Option.Rel Text.Padded e.body? e'.body? := by
  cases h with
  | block h => exact .some h
  | _ => exact .none

theorem Piece.Proper.padded
    {offset place : Nat} {text padded : List Char} {ending ending' : Ending}
    (h : Proper ⟨offset, text, ending⟩) (htext : Text.Padded text padded)
    (hexposes : Quoting.outside.Exposes text) (hending : ending.Padded ending') :
    Proper ⟨place, padded, ending'⟩ := by
  obtain ⟨depth, hread, hfits⟩ := h
  refine ⟨depth, (Cursor.readText_padded htext hexposes).trans hread, ?_⟩
  cases hending with
  | block hbody hexposes => exact (Cursor.readBlock_padded hbody hexposes).trans hfits
  | _ => exact hfits

variable {whole whole' : List Char}

/-- A padded text has the same pieces. -/
theorem Partition.exists_padded
    {offset place : Nat} {text padded : List Char} {pieces : List Piece}
    (h : Partition offset text pieces) (hpadded : Text.Padded text padded)
    (hexposes : Quoting.outside.Exposes text)
    (habreast : Abreast whole whole' offset place text padded) :
    ∃ pieces', Partition place padded pieces' ∧
      List.Forall₂ (Piece.Padded whole whole') pieces pieces' := by
  induction h generalizing place padded with
  | @last offset text hproper =>
      refine ⟨_, .last (hproper.padded hpadded hexposes .last), .cons ⟨hpadded, .last, ?_⟩ .nil⟩
      simpa [Piece.source, Ending.source] using habreast
  | @semicolon offset text rest pieces hproper _ ih =>
      obtain ⟨text', rest', rfl, htext, hrest⟩ := hpadded.exists_append_cons (by decide)
      obtain ⟨htextExposes, hmore⟩ := Quoting.exposes_append.mp hexposes
      rw [hproper.after_text] at hmore
      have hsource : Abreast whole whole' offset place ((text ++ [';']) ++ rest)
          ((text' ++ [';']) ++ rest') := by
        simpa using habreast
      obtain ⟨pieces', hpieces, hall⟩ := ih hrest (Quoting.exposes_cons.mp hmore).2
        (habreast.append_right htext).tail
      exact ⟨_, .semicolon (hproper.padded htext htextExposes .semicolon) hpieces,
        .cons ⟨htext, .semicolon, hsource.append_left⟩ hall⟩
  | @block offset text body rest pieces hproper _ ih =>
      obtain ⟨text', behind, rfl, htext, hbehind⟩ := hpadded.exists_append_cons (by decide)
      obtain ⟨body', rest', rfl, hbody, hrest⟩ := hbehind.exists_append_cons (by decide)
      obtain ⟨htextExposes, hmore⟩ := Quoting.exposes_append.mp hexposes
      rw [hproper.after_text] at hmore
      obtain ⟨hbodyExposes, hlast⟩ := Quoting.exposes_append.mp (Quoting.exposes_cons.mp hmore).2
      rw [Quoting.outside_next_openBrace, hproper.after_body] at hlast
      have hending : Ending.Padded (.block body) (.block body') := .block hbody hbodyExposes
      have hsource : Abreast whole whole' offset place
          ((text ++ ('{' :: (body ++ ['}']))) ++ rest)
          ((text' ++ ('{' :: (body' ++ ['}']))) ++ rest') := by
        simpa using habreast
      obtain ⟨pieces', hpieces, hall⟩ := ih hrest (Quoting.exposes_cons.mp hlast).2
        ((habreast.append_right htext).tail.append_right hbody).tail
      exact ⟨_, .block (hproper.padded htext htextExposes hending) hpieces,
        .cons ⟨htext, hending, hsource.append_left⟩ hall⟩

namespace Piece.Padded

variable {p q : Piece} {node : Option (Node Nat)}

theorem sameLine_takeWhile
    (h : p.Padded whole whole' q) {f : Char → Bool} (hf : ∀ w, Pad w → f w = f '\n') :
    SameLine whole whole' (p.offset + Text.byteLength (p.text.takeWhile f))
      (q.offset + Text.byteLength (q.text.takeWhile f)) := by
  have hsource : ∀ p : Piece, p.source =
      p.text.takeWhile f ++ (p.text.dropWhile f ++ p.ending.source) := by
    intro p
    rw [← List.append_assoc, List.takeWhile_append_dropWhile, source]
  have habreast := h.abreast
  rw [hsource p, hsource q] at habreast
  exact (habreast.append_right (h.text.takeWhile hf)).line

theorem sameLine_start (h : p.Padded whole whole' q) : SameLine whole whole' p.start q.start :=
  h.sameLine_takeWhile fun _ hw => hw.blank

theorem rel_declaration? (h : p.Padded whole whole' q) :
    Option.Rel (Declaration.Padded (SameLine whole whole')) p.declaration? q.declaration? := by
  have hread := Assignment.rel_read? h.text
  have hplace := h.sameLine_takeWhile (f := Text.isWhite) fun _ hw => hw.white
  unfold declaration?
  revert hread
  generalize Assignment.read? p.text = a
  generalize Assignment.read? q.text = b
  intro hread
  cases hread with
  | none => exact .none
  | some hab => exact .some ⟨hab, hplace⟩

theorem rel_declared? (h : p.Padded whole whole' q) :
    Option.Rel (Declaration.Padded (SameLine whole whole')) p.declared? q.declared? := by
  have hdeclaration := h.rel_declaration?
  have hending := h.ending
  unfold declared?
  revert hending
  generalize p.ending = e
  generalize q.ending = e'
  intro hending
  cases hending with
  | block => exact .none
  | _ => exact hdeclaration

theorem exists_yields (h : p.Padded whole whole' q) (hyields : p.Yields node) :
    ∃ node', q.Yields node' ∧ Option.Rel (Node.Padded (SameLine whole whole')) node node' := by
  have htrim := h.text.trim
  by_cases hat : (Text.trim p.text).head? = some '@'
  · obtain ⟨text, htext⟩ := List.head?_eq_some_iff.mp hat
    rw [htext] at htrim
    obtain ⟨text', htext', hpadded⟩ := htrim.exists_cons (by decide)
    cases (yields_iff_of_at htext).mp hyields
    refine ⟨_, (yields_iff_of_at htext').mpr rfl, .some (.atRule ?_)⟩
    exact AtRule.padded_read hpadded h.ending.body? h.sameLine_start
  · have hat' : (Text.trim q.text).head? ≠ some '@' := by
      rwa [ne_eq, ← htrim.head?_eq_some_iff rfl]
    have hending := h.ending
    cases hbody : p.ending.body? with
    | some body =>
        have hp := Ending.body?_eq_some_iff.mp hbody
        have habreast := h.abreast
        rw [source, source, hp] at habreast
        rw [hp] at hending
        generalize hq : q.ending = ending at hending habreast
        cases hending with
        | @block _ body' hpadded hexposes =>
            obtain ⟨inner, hinner, rfl⟩ := (yields_iff_of_block hat hp).mp hyields
            obtain ⟨inner', hinner', hall⟩ := hinner.exists_padded hpadded hexposes
              (habreast.append_right h.text).tail.append_left
            refine ⟨_, (yields_iff_of_block hat' hq).mpr ⟨inner', hinner', rfl⟩,
              .some (.rule ⟨by simpa using htrim, ?_, h.sameLine_start⟩)⟩
            exact List.rel_filterMap (fun _ _ hpadded => hpadded.rel_declared?) hall
    | none =>
        have hbody' : q.ending.body? = none := by
          have hrel := hending.body?
          rw [hbody] at hrel
          generalize q.ending.body? = body at hrel ⊢
          cases hrel
          rfl
        rw [(yields_iff_of_body?_eq_none hat hbody).mp hyields]
        refine ⟨_, (yields_iff_of_body?_eq_none hat' hbody').mpr rfl, ?_⟩
        have hdeclaration := h.rel_declaration?
        revert hdeclaration
        generalize p.declaration? = d
        generalize q.declaration? = e
        intro hdeclaration
        cases hdeclaration with
        | none => exact .none
        | some hde => exact .some (.declaration hde)

end Piece.Padded

theorem Piece.exists_yields_of_padded
    {pieces pieces' : List Piece} {yields : List (Option (Node Nat))}
    (h : List.Forall₂ (Piece.Padded whole whole') pieces pieces')
    (hyields : List.Forall₂ Piece.Yields pieces yields) :
    ∃ yields', List.Forall₂ Piece.Yields pieces' yields' ∧
      List.Forall₂ (Option.Rel (Node.Padded (SameLine whole whole'))) yields yields' := by
  induction h generalizing yields with
  | nil =>
      cases hyields
      exact ⟨[], .nil, .nil⟩
  | cons hpadded _ ih =>
      cases hyields with
      | cons hnode hmore =>
          obtain ⟨node', hnode', hrel⟩ := hpadded.exists_yields hnode
          obtain ⟨yields', hyields', hall⟩ := ih hmore
          exact ⟨node' :: yields', .cons hnode' hyields', .cons hrel hall⟩

/-! ## Faults -/

namespace Pass

variable {p q : Pass} {offset : Nat} {a b : List Char}

theorem quoting_of_step {c : Char} {next : Pass} (h : p.step offset c = .ok next) :
    next.quoting = p.quoting.next c := by
  unfold step at h
  simp only at h
  split at h
  · contradiction
  · split at h
    · cases h
      rfl
    · split at h
      · cases h
        rfl
      · next hquoting hnext =>
          rw [ne_eq, not_not] at hquoting hnext
          rw [hnext, ← hquoting]
          split at h
          · cases h
            rfl
          · split at h
            · split at h
              · contradiction
              · cases h
                rfl
            · cases h
              rfl

theorem run_of_broken (h : p.quoting = .broken) (offset : Nat) (text : List Char) :
    p.run offset text = .error ⟨.unclosedString, p.quoteAt⟩ := by
  cases text with
  | nil => simp [run, finish, h]
  | cons c text => simp [run_cons, step, h, Quoting.next, bind_error]

theorem step_of_pad
    {w : Char} (hw : Pad w) (hescaped : ∀ quote, p.quoting ≠ .escaped quote)
    (hbroken : p.quoting ≠ .broken) (offset : Nat) : p.step offset w = .ok p := by
  have hopen : w ≠ '{' := hw.ne rfl
  have hclose : w ≠ '}' := hw.ne rfl
  rcases p with ⟨s, quoteAt, depth, braceAt⟩
  simp only at hescaped hbroken
  unfold step
  simp only [Quoting.next_of_pad hescaped hw, hbroken, hopen, hclose, if_false]
  split
  · rfl
  · rfl

/-- A pass over a padded text finds the same fault on the same line. -/
theorem Faces.run
    {offset' : Nat} (h : p.Faces (SameLine whole whole') q) (hpadded : Text.Padded a b)
    (habreast : Abreast whole whole' offset offset' a b) (hexposes : p.quoting.Exposes a) :
    Lockstep (Fault.Faces (SameLine whole whole')) Eq (p.run offset a) (q.run offset' b) := by
  induction hpadded generalizing p q offset offset' with
  | nil => exact h.finish
  | char c _ ih =>
      rw [run_cons, run_cons]
      refine (h.step habreast.line c).bind fun p' q' hp _ hnext => ih hnext habreast.tail ?_
      rw [quoting_of_step hp]
      exact (Quoting.exposes_cons.mp hexposes).2
  | pad hw _ ih =>
      -- Both passes tell of a broken string one character late, here at the pad and there
      -- at the line feed, but they give the place of its quote.
      by_cases hbroken : p.quoting = .broken
      · rw [run_of_broken hbroken, run_of_broken (h.quoting.trans hbroken)]
        exact .error ⟨rfl, h.quoteAt (by simp [hbroken])⟩
      · have hescaped := (Quoting.exposes_cons.mp hexposes).1 rfl
        have hstep := step_of_pad (p := q) hw (by rwa [h.quoting]) (by rwa [h.quoting])
        rw [run_cons q, hstep, bind_ok]
        exact ih h (habreast.skip_pad hw) hexposes

end Pass

/-! ## Documents -/

namespace Document

variable {text padded : List Char}

theorem exists_ofBlanked_padded
    {doc : Document Nat} (hpadded : Text.Padded text padded)
    (hexposes : Quoting.outside.Exposes text) (h : ofBlanked text = .ok doc) :
    ∃ doc', ofBlanked padded = .ok doc' ∧ doc.Padded (SameLine text padded) doc' := by
  obtain ⟨pieces, yields, hpieces, hyields, rfl⟩ := ofBlanked_eq_ok_iff.mp h
  obtain ⟨pieces', hpieces', hall⟩ :=
    hpieces.exists_padded hpadded hexposes (.start text padded)
  obtain ⟨yields', hyields', hrel⟩ := Piece.exists_yields_of_padded hall hyields
  exact ⟨_, ofBlanked_eq_ok_iff.mpr ⟨pieces', yields', hpieces', hyields', rfl⟩,
    List.rel_filterMap (fun _ _ h => h) hrel⟩

/-- A padded text is read alike. -/
theorem lockstep_ofBlanked
    (hpadded : Text.Padded text padded) (hexposes : Quoting.outside.Exposes text) :
    Lockstep (Fault.Faces (SameLine text padded)) (Document.Padded (SameLine text padded))
      (ofBlanked text) (ofBlanked padded) := by
  cases hdoc : ofBlanked text with
  | ok doc =>
      obtain ⟨doc', hdoc', hdocs⟩ := exists_ofBlanked_padded hpadded hexposes hdoc
      rw [hdoc']
      exact .ok hdocs
  | error fault =>
      have hrun := (Pass.faces_start (SameLine text padded)).run hpadded (.start text padded)
        hexposes
      rw [← ofBlanked_verdict, ← ofBlanked_verdict, hdoc] at hrun
      cases hdoc' : ofBlanked padded with
      | ok doc' =>
          rw [hdoc'] at hrun
          cases hrun
      | error fault' =>
          rw [hdoc'] at hrun
          cases hrun with
          | error hfault => exact .error hfault

end Document

end ContrastLint
