import ContrastLint.Proofs.RoundTrip
import ContrastLint.Proofs.Slots

/-!
# Declarations that leave parentheses open

The last declaration of a rule may leave parentheses open.  Written anew, it is
not ended by the semicolon that it is written with, which becomes a part of its
value.  Such a value has a parenthesis before and after.  So a pruned document
is read again with the same rules, but for values of this kind.
-/

namespace ContrastLint

/-- Two assignments to one property have the same value, or both of their values
have an opening parenthesis. -/
structure Assignment.Alike (a b : Assignment) : Prop where
  property : a.property = b.property
  value : a.value = b.value ∨ '(' ∈ a.value.toList ∧ '(' ∈ b.value.toList

structure Rule.Alike {α β : Type} (r : Rule α) (s : Rule β) : Prop where
  selector : r.selector = s.selector
  declarations :
    List.Forall₂ (fun d e => d.toAssignment.Alike e.toAssignment) r.declarations s.declarations

/-! ## Where parentheses are opened -/

theorem Sign.parens_le {s : Sign} (h : s ≠ .openParen) (depth : Nat) : s.parens depth ≤ depth := by
  cases s <;> simp_all [parens]

theorem Quoting.openParen_of_sign {s : Quoting} {c : Char} (h : s.sign c = .openParen) :
    c = '(' := by
  cases s with
  | outside => exact Sign.ofChar_eq_openParen_iff.mp h
  | _ => contradiction

theorem Cursor.depth_le_of_readText
    {k k' : Cursor} {text : List Char} (h : k.readText text = some k') (hnone : '(' ∉ text) :
    k'.depth ≤ k.depth := by
  induction text generalizing k with
  | nil =>
      cases h
      exact le_rfl
  | cons c text ih =>
      obtain ⟨hne, hmore⟩ := not_or.mp (List.mem_cons.not.mp hnone)
      obtain ⟨next, hnext, hrest⟩ := Option.bind_eq_some_iff.mp h
      obtain ⟨-, rfl⟩ := text?_eq_some_iff.mp hnext
      have hsign : k.quoting.sign c ≠ .openParen :=
        fun hsign => hne (Quoting.openParen_of_sign hsign).symm
      exact (ih hrest hmore).trans (Sign.parens_le hsign k.depth)

namespace Assignment

theorem neutral_of_isNamed
    {a : Assignment} {name : String} (h : a.isNamed name = true)
    (hname : Text.Neutral (name.toList.map Char.toLower)) : Text.Neutral a.property.toList := by
  have hlower : a.property.toList.map Char.toLower = name.toList.map Char.toLower := by
    simpa [isNamed, Text.equalsIgnoringCase] using h
  exact Text.neutral_of_map_toLower hlower hname

theorem neutral_of_setsColor
    {a : Assignment} (h : a.setsColor = true) : Text.Neutral a.property.toList := by
  simp only [setsColor, setsForeground, setsBackground, Bool.or_eq_true] at h
  rcases h with h | h | h
  · exact neutral_of_isNamed h (by decide)
  · exact neutral_of_isNamed h (by decide)
  · exact neutral_of_isNamed h (by decide)

/-- Parentheses that are left open are in the value. -/
theorem openParen_mem_value
    {a : Assignment} {depth : Nat} (hname : Text.Neutral a.property.toList)
    (h : Reading .start a.render.toList ⟨.outside, depth + 1⟩) : '(' ∈ a.value.toList := by
  by_contra hnone
  have hproperty : '(' ∉ a.property.toList := fun hmem => hname '(' hmem (by decide)
  have hmark : '(' ∉ writtenMark a.important := by
    cases a.important <;> decide
  have hrender : '(' ∉ a.render.toList := by
    simp [toList_render, hproperty, hnone, hmark]
  have hdepth := Cursor.depth_le_of_readText h.read hrender
  contradiction

theorem Keeps.openParen_mem
    {a : Assignment} {left right : List Char} (h : a.Keeps left right) (hmem : '(' ∈ right) :
    '(' ∈ a.value.toList := by
  rcases h.value with ⟨mark, hright, hmark⟩
  have hnone : '(' ∉ mark := by
    cases himportant : a.important with
    | false => simp_all
    | true =>
        rw [if_pos himportant] at hmark
        exact fun hmem => hmark.neutral '(' hmem (by decide)
  have htrim : '(' ∈ Text.trim right := (Text.mem_trim_iff (by decide)).mpr hmem
  simpa [hright, hnone] using htrim

/-- More text after an assignment may change a value with a parenthesis, but
leaves it with one. -/
theorem Legible.exists_read?_append
    {a : Assignment} (h : a.Legible) (hopen : '(' ∈ a.value.toList) (tail : List Char) :
    ∃ a', read? (a.render.toList ++ tail) = some a' ∧ a'.Alike a := by
  have htext : a.render.toList ++ tail = a.property.toList ++
      ':' :: (' ' :: (a.value.toList ++ writtenMark a.important) ++ tail) := by
    simp [toList_render]
  have htrim : Text.trim a.property.toList = a.property.toList := Text.trim_of_trimmed h.property
  obtain ⟨a', hread⟩ := Assignment.exists_read?_append
    (' ' :: (a.value.toList ++ writtenMark a.important) ++ tail) h.noColon
    (by rw [htrim]; exact h.nonempty)
  have hkeeps := keeps_of_read?_append h.noColon hread
  refine ⟨a', by rw [htext]; exact hread, ?_, .inr ⟨hkeeps.openParen_mem (by simp [hopen]), hopen⟩⟩
  rw [← String.toList_inj, hkeeps.property, htrim]

end Assignment

/-! ## Rules written anew -/

namespace Rule

variable {Place : Type} {offset : Nat} {lead : List Char}

/-- A semicolon between parentheses ends no declaration.  It is read as a part of
the text before it. -/
theorem exists_bodyReads_of_open
    {d : Declaration Place} {a : Assignment} {depth : Nat}
    (hreading : Reading .start d.toAssignment.render.toList ⟨.outside, depth + 1⟩)
    (hread : Assignment.read? (d.toAssignment.render.toList ++ [';', '\n']) = some a)
    (offset : Nat) (hlead : Text.White lead) :
    ∃ place, BodyReads offset (lead ++ lines [d]) [⟨a, place⟩] := by
  have hgoes : Reading ⟨.outside, depth + 1⟩ [';', '\n'] ⟨.outside, depth + 1⟩ :=
    ⟨rfl, Comment.free_of_notMem (by decide)⟩
  have hline := hreading.append hgoes (.inr (by simp))
  have hindent := white_indent hlead
  obtain ⟨place, hdeclared⟩ := Piece.declaration?_white_append hread offset .last hindent
  have htext : lead ++ lines [d] =
      (lead ++ [' ', ' ', ' ', ' ']) ++ (d.toAssignment.render.toList ++ [';', '\n']) := by
    simp [lines]
  rw [htext]
  refine ⟨place, _, .last (.of_reading hindent hline trivial), ?_,
    List.filterMap_cons_some hdeclared⟩
  rw [List.forall_mem_singleton]
  exact .of_reading hindent hline (by simp)

/-- The lines of declarations are read as themselves, but for the last one if it
leaves parentheses open. -/
theorem Listable.exists_bodyReads
    {R : Assignment → Assignment → Prop} {declarations : List (Declaration Place)}
    (h : Listable declarations)
    (hclosed : ∀ d ∈ declarations, d.toAssignment.Writable → R d.toAssignment d.toAssignment)
    (hopen : ∀ d ∈ declarations, ∀ depth, d.toAssignment.Legible →
      Reading .start d.toAssignment.render.toList ⟨.outside, depth + 1⟩ →
      ∃ a, Assignment.read? (d.toAssignment.render.toList ++ [';', '\n']) = some a ∧
        R a d.toAssignment)
    (offset : Nat) (hlead : Text.White lead) :
    ∃ found, BodyReads offset (lead ++ lines declarations) found ∧
      List.Forall₂ (fun d e => R d.toAssignment e.toAssignment) found declarations := by
  induction h generalizing offset lead with
  | nil => exact ⟨[], by simpa [lines] using bodyReads_white offset hlead, .nil⟩
  | @last d depth hlegible hreading =>
      rw [List.forall_mem_singleton] at hclosed hopen
      cases depth with
      | zero =>
          have hwritable : d.toAssignment.Writable := ⟨hlegible, hreading⟩
          obtain ⟨place, hbody⟩ :
              ∃ place, BodyReads offset (lead ++ lines [d]) [⟨d.toAssignment, place⟩] :=
            BodyReads.cons hwritable hlead (bodyReads_white _ Text.white_lineFeed)
          exact ⟨_, hbody, .cons (hclosed hwritable) .nil⟩
      | succ depth =>
          obtain ⟨a, hread, hrelated⟩ := hopen depth hlegible hreading
          obtain ⟨place, hbody⟩ := exists_bodyReads_of_open hreading hread offset hlead
          exact ⟨_, hbody, .cons hrelated .nil⟩
  | cons hd _ ih =>
      rcases List.forall_mem_cons.mp hclosed with ⟨hsame, hothers⟩
      obtain ⟨found, hfound, hrelated⟩ :=
        ih hothers (List.forall_mem_cons.mp hopen).2 _ Text.white_lineFeed
      obtain ⟨place, hbody⟩ := BodyReads.cons hd hlead hfound
      exact ⟨_, hbody, .cons (hsame hd) hrelated⟩

theorem Listable.filter
    {declarations : List (Declaration Place)} (h : Listable declarations)
    (p : Declaration Place → Bool) : Listable (declarations.filter p) := by
  induction h with
  | nil => exact .nil
  | @last d depth hlegible hreading =>
      cases hd : p d with
      | false => simpa [hd] using Listable.nil
      | true => simpa [hd] using Listable.last hlegible hreading
  | @cons d declarations hd _ ih =>
      cases hkeep : p d with
      | false => simpa [hkeep] using ih
      | true => simpa [hkeep] using Listable.cons hd ih

end Rule

/-! ## Pruned documents written anew -/

inductive Node.Alike {α β : Type} : Node α → Node β → Prop
  | rule {r : Rule α} {s : Rule β} (h : r.Alike s) : Alike (.rule r) (.rule s)

namespace Document

variable {text : List Char} {doc : Document Nat}

theorem headed_and_listable_of_read
    (h : read text = .ok doc) {r : Rule Nat} (hr : r ∈ doc.rules) :
    r.Headed ∧ Rule.Listable r.declarations := by
  obtain ⟨p, hproper, hplain, hyields⟩ := exists_piece_of_read h _ (mem_rules_iff.mp hr)
  exact Rule.headed_and_listable_of_yields hproper hplain hyields

/-- What is left of a rule that was read can be written anew. -/
theorem headed_and_listable_of_mem_pruned
    (h : read text = .ok doc) {r : Rule Nat} (hr : .rule r ∈ doc.pruned.nodes) :
    r.Headed ∧ Rule.Listable r.declarations := by
  obtain ⟨whole, hwhole, hpruned⟩ := List.mem_filterMap.mp hr
  obtain ⟨_, hkept, heq⟩ := Option.map_eq_some_iff.mp hpruned
  obtain rfl := Node.rule.inj heq
  obtain rfl := Rule.eq_of_pruned? hkept
  rcases headed_and_listable_of_read h hwhole with ⟨hheaded, hlistable⟩
  exact ⟨⟨hheaded.selector, hheaded.noAt, hheaded.reading⟩, hlistable.filter _⟩

/-- A pruned rule is found where it is written.  Its declarations are related as
assignments are that close their parentheses or do not. -/
theorem found_of_mem_pruned
    {R : Assignment → Assignment → Prop} (hclosed : ∀ a : Assignment, a.Writable → R a a)
    (hopen : ∀ (a : Assignment) (depth : Nat), a.Legible → '(' ∈ a.value.toList →
      Reading .start a.render.toList ⟨.outside, depth + 1⟩ →
      ∃ b, Assignment.read? (a.render.toList ++ [';', '\n']) = some b ∧ R b a)
    (h : read text = .ok doc) {r : Rule Nat} (hr : .rule r ∈ doc.pruned.nodes)
    (offset : Nat) {lead : List Char} (hlead : Text.White lead) :
    Node.Found ((Node.rule r).piece offset lead) fun found =>
      ∃ s, found = .rule s ∧ s.selector = r.selector ∧
        List.Forall₂ (fun d e => R d.toAssignment e.toAssignment)
          s.declarations r.declarations := by
  rcases headed_and_listable_of_mem_pruned h hr with ⟨hheaded, hlistable⟩
  have hlines : ∀ offset, ∃ found,
      Rule.BodyReads offset ('\n' :: Rule.lines r.declarations) found ∧
        List.Forall₂ (fun d e => R d.toAssignment e.toAssignment) found r.declarations := by
    intro offset
    refine hlistable.exists_bodyReads (fun d _ => hclosed d.toAssignment) ?_ offset
      Text.white_lineFeed
    intro d hd depth hlegible hreading
    cases colored_of_mem_pruned hr with
    | rule _ hcolors =>
        have hname := Assignment.neutral_of_setsColor (hcolors d hd)
        exact hopen _ depth hlegible (Assignment.openParen_mem_value hname hreading) hreading
  exact Node.found_rule hheaded _ hlines offset hlead

/-- A pruned document is read again, rule by rule, from what it is written as. -/
theorem exists_read_render_pruned (h : read text = .ok doc) :
    ∃ doc', read doc.pruned.render.toList = .ok doc' ∧
      List.Forall₂ Rule.Alike doc'.rules doc.pruned.rules := by
  obtain ⟨doc', hread, hnodes⟩ : ∃ doc', read doc.pruned.render.toList = .ok doc' ∧
      List.Forall₂ Node.Alike doc'.nodes doc.pruned.nodes := by
    apply exists_read_render_of_found
    intro node hnode offset lead hlead
    cases colored_of_mem_pruned hnode with
    | rule =>
        have hfound := found_of_mem_pruned (R := Assignment.Alike) (fun a _ => ⟨rfl, .inl rfl⟩)
          (fun a depth hlegible hmem _ => hlegible.exists_read?_append hmem _) h hnode offset hlead
        apply hfound.imp
        rintro _ ⟨s, rfl, hselector, hdeclarations⟩
        exact .rule ⟨hselector, hdeclarations⟩
  refine ⟨doc', hread, List.rel_filterMap ?_ hnodes⟩
  rintro _ _ ⟨halike⟩
  exact .some halike

end Document

end ContrastLint
