import ContrastLint.Proofs.Faults
import ContrastLint.Proofs.Yields

/-!
# Where nodes stand

A node stands at the first character of its piece that is no blank, and a
declaration at its first character that is not white.  Both are characters of
the given text, so every place that a stylesheet is read with, and every fault
that it is refused with, is located at a character boundary.
-/

namespace ContrastLint

section Places

variable {Place α β γ : Type}

/-- The places of a node: its own, and then those of its declarations. -/
def Node.places : Node Place → List Place
  | .rule r => r.place :: r.declarations.map (·.place)
  | .declaration d => [d.place]
  | .atRule a => [a.place]

def Document.places (doc : Document Place) : List Place :=
  doc.nodes.flatMap Node.places

@[simp] theorem Node.places_map (f : α → β) (node : Node α) :
    (node.map f).places = node.places.map f := by
  cases node with
  | rule r => simp [map, Rule.map, places, Declaration.map]
  | declaration d => rfl
  | atRule a => rfl

@[simp] theorem Document.places_map (f : α → β) (doc : Document α) :
    (doc.map f).places = doc.places.map f := by
  simp [places, map, List.flatMap_map, List.map_flatMap]

theorem Node.map_map (f : α → β) (g : β → γ) (node : Node α) :
    (node.map f).map g = node.map (g ∘ f) := by
  cases node with
  | rule r => simp [map, Rule.map, Declaration.map]
  | declaration d => rfl
  | atRule a => rfl

namespace Document

theorem map_congr
    {f g : α → β} {doc : Document α} (h : ∀ place ∈ doc.places, f place = g place) :
    doc.map f = doc.map g := by
  refine congrArg Document.mk (List.map_congr_left fun node hnode => ?_)
  have hnode : ∀ place ∈ node.places, f place = g place := fun place hplace =>
    h place (List.mem_flatMap.mpr ⟨node, hnode, hplace⟩)
  cases node with
  | rule r =>
      rcases List.forall_mem_cons.mp hnode with ⟨hplace, hdeclarations⟩
      have hsame : r.declarations.map (·.map f) = r.declarations.map (·.map g) := by
        apply List.map_congr_left
        intro d hd
        simp [Declaration.map, hdeclarations d.place (List.mem_map_of_mem hd)]
      simp [Node.map, Rule.map, hplace, hsame]
  | declaration d => simp [Node.map, Declaration.map, hnode d.place (by simp [Node.places])]
  | atRule a => simp [Node.map, AtRule.map, hnode a.place (by simp [Node.places])]

theorem map_map (f : α → β) (g : β → γ) (doc : Document α) :
    (doc.map f).map g = doc.map (g ∘ f) := by
  simp [map, Node.map_map]

theorem map_append (f : α → β) (doc other : Document α) :
    (doc.append other).map f = (doc.map f).append (other.map f) := by
  simp [append, map]

end Document

variable {σ : Type} {kind : σ → Prop} {f : α → StateM σ β} {g : α → β}

theorem Declaration.answers_mapM
    {d : Declaration α} (h : Answers kind (f d.place) (g d.place)) :
    Answers kind (d.mapM f) (d.map g) :=
  h.bind .pure

/-- A node is mapped place by place. -/
theorem Node.answers_mapM
    {node : Node α}
    (h : ∀ place ∈ node.places, Answers kind (f place) (g place)) :
    Answers kind (node.mapM f) (node.map g) := by
  cases node with
  | rule r =>
      rcases List.forall_mem_cons.mp h with ⟨hplace, hmore⟩
      have hdeclarations : Answers kind (r.declarations.mapM (·.mapM f))
          (r.declarations.map (·.map g)) :=
        .mapM fun d hd => Declaration.answers_mapM (hmore _ (List.mem_map_of_mem hd))
      have hrule : Answers kind (r.mapM f) (r.map g) :=
        hplace.bind (hdeclarations.bind .pure)
      exact hrule.map Node.rule
  | declaration d =>
      exact (Declaration.answers_mapM (h d.place (by simp [places]))).map Node.declaration
  | atRule a =>
      have hrule : Answers kind (a.mapM f) (a.map g) :=
        (h a.place (by simp [places])).bind .pure
      exact hrule.map Node.atRule

theorem Document.answers_mapM
    {doc : Document α}
    (h : ∀ place ∈ doc.places, Answers kind (f place) (g place)) :
    Answers kind (doc.mapM f) (doc.map g) := by
  refine (Answers.mapM fun node hnode => Node.answers_mapM fun place hplace => ?_).bind .pure
  exact h place (List.mem_flatMap.mpr ⟨node, hnode, hplace⟩)

end Places

/-- Places at character boundaries are located one by one. -/
theorem Document.locate_eq_map
    {text : List Char} {doc : Document Nat} (h : ∀ place ∈ doc.places, Text.Boundary text place) :
    doc.locate text = doc.map (Position.locate text) := by
  have hanswers : Answers (Locator.Coherent · text) (doc.mapM Locator.locate)
      (doc.map (Position.locate text)) := by
    apply answers_mapM
    intro place hplace
    rcases h place hplace with ⟨before, hbefore, rfl⟩
    rw [Position.locate_eq hbefore]
    exact Locator.answers_locate hbefore
  exact (hanswers _ (Locator.coherent_ofText text)).1

/-! ## Nodes -/

namespace Piece

variable {p : Piece}

theorem shows_of_declaration?
    {d : Declaration Nat} (h : p.declaration? = some d) :
    Text.Shows p.offset p.text d.place := by
  rcases Option.map_eq_some_iff.mp h with ⟨a, hread, rfl⟩
  apply Text.shows_of_dropWhile rfl rfl
  intro hblank
  have hwhite : Text.White p.text := List.dropWhile_eq_nil_iff.mp hblank
  rw [Assignment.read?_of_notMem (Assignment.colon_notMem_of_white hwhite)] at hread
  contradiction

theorem shows_of_declared?
    {d : Declaration Nat} (h : p.declared? = some d) :
    Text.Shows p.offset p.source d.place :=
  (shows_of_declaration? (declaration?_of_declared? h)).append_right _

theorem shows_start_of_text (h : p.text.dropWhile Text.isAsciiWhite ≠ []) :
    Text.Shows p.offset p.source p.start :=
  (Text.shows_of_dropWhile rfl rfl h).append_right _

theorem shows_start_of_block
    {body : List Char} (h : p.ending = .block body) : Text.Shows p.offset p.source p.start := by
  have hblank : Text.isAsciiWhite '{' = false := rfl
  have hsource : p.source = p.text ++ '{' :: (body ++ ['}']) := by
    rw [source, h, Ending.source]
  have htake : p.source.takeWhile Text.isAsciiWhite = p.text.takeWhile Text.isAsciiWhite := by
    rw [hsource, takeWhile_append_cons hblank]
  have hstart : Text.Shows p.offset p.source
      (p.offset + Text.byteLength (p.source.takeWhile Text.isAsciiWhite)) :=
    Text.shows_of_dropWhile rfl rfl (by simp [hsource, dropWhile_append_cons hblank])
  rw [htake] at hstart
  exact hstart

end Piece

/-- A part of a text that starts at the byte `offset` stands at the byte `place`. -/
def Text.Stands (offset : Nat) (text : List Char) (place : Nat) (part : List Char) : Prop :=
  ∃ before rest, text = before ++ part ++ rest ∧ place = offset + byteLength before

namespace Text.Stands

variable {offset place place' : Nat} {text part part' : List Char}

theorem trans (h : Stands offset text place part) (h' : Stands place part place' part') :
    Stands offset text place' part' := by
  rcases h with ⟨before, rest, rfl, rfl⟩
  rcases h' with ⟨before', rest', rfl, rfl⟩
  exact ⟨before ++ before', rest' ++ rest, by simp, by rw [byteLength_append, Nat.add_assoc]⟩

theorem shows (h : Stands offset text place part) (hshows : Shows place part place') :
    Shows offset text place' := by
  rcases h with ⟨before, rest, rfl, rfl⟩
  rw [List.append_assoc]
  exact (hshows.append_right rest).append_left

end Text.Stands

/-- The pieces of a text stand in it, each at its offset. -/
theorem Partition.stands
    {offset : Nat} {text : List Char} {pieces : List Piece} {p : Piece}
    (h : Partition offset text pieces) (hp : p ∈ pieces) :
    Text.Stands offset text p.offset p.source := by
  induction h with
  | @last offset text hproper =>
      obtain rfl := List.mem_singleton.mp hp
      exact ⟨[], [], by simp [Piece.source, Ending.source], rfl⟩
  | @semicolon offset text rest pieces hproper _ ih =>
      have hsize : ';'.utf8Size = 1 := rfl
      rcases List.mem_cons.mp hp with rfl | hmem
      · exact ⟨[], rest, by simp [Piece.source, Ending.source], rfl⟩
      · have hrest : Text.Stands offset (text ++ ';' :: rest)
            (offset + Text.byteLength text + 1) rest :=
          ⟨text ++ [';'], [], by simp, by simp [hsize, Nat.add_assoc]⟩
        exact hrest.trans (ih hmem)
  | @block offset text body rest pieces hproper _ ih =>
      have hopen : '{'.utf8Size = 1 := rfl
      have hclose : '}'.utf8Size = 1 := rfl
      rcases List.mem_cons.mp hp with rfl | hmem
      · exact ⟨[], rest, by simp [Piece.source, Ending.source], rfl⟩
      · have hrest : Text.Stands offset (text ++ '{' :: (body ++ '}' :: rest))
            (offset + Text.byteLength text + 1 + Text.byteLength body + 1) rest :=
          ⟨text ++ '{' :: (body ++ ['}']), [], by simp, by
            simp [hopen, hclose, Nat.add_assoc]⟩
        exact hrest.trans (ih hmem)

theorem Partition.shows
    {offset place : Nat} {text : List Char} {pieces : List Piece} {p : Piece}
    (h : Partition offset text pieces) (hp : p ∈ pieces)
    (hshows : Text.Shows p.offset p.source place) : Text.Shows offset text place :=
  (h.stands hp).shows hshows

theorem Piece.stands_body
    {p : Piece} {body : List Char} (h : p.ending = .block body) :
    Text.Stands p.offset p.source p.bodyOffset body := by
  have hopen : '{'.utf8Size = 1 := rfl
  refine ⟨p.text ++ ['{'], ['}'], ?_, ?_⟩
  · rw [source, h, Ending.source]
    simp
  · simp [bodyOffset, hopen, Nat.add_assoc]

theorem Piece.shows_of_body
    {p : Piece} {body : List Char} {place : Nat} (h : p.ending = .block body)
    (hshows : Text.Shows p.bodyOffset body place) : Text.Shows p.offset p.source place :=
  (stands_body h).shows hshows

/-- A piece shows where its node and the declarations of its node stand. -/
theorem Piece.shows_of_yields
    {p : Piece} {node : Node Nat} (h : p.Yields (some node)) :
    ∀ place ∈ node.places, Text.Shows p.offset p.source place := by
  cases node with
  | rule r =>
      obtain ⟨-, body, inner, hending, hinner, rfl⟩ := exists_inner_of_yields_rule h
      intro place hplace
      rcases List.mem_cons.mp hplace with rfl | hmem
      · exact shows_start_of_block hending
      · rcases List.mem_map.mp hmem with ⟨d, hd, rfl⟩
        rcases List.mem_filterMap.mp hd with ⟨q, hq, hdeclared⟩
        exact shows_of_body hending (hinner.shows hq (shows_of_declared? hdeclared))
  | declaration d =>
      cases h with
      | declaration _ _ hholds =>
          rw [Node.places, List.forall_mem_singleton]
          exact (shows_of_declaration? (holds_iff.mp hholds)).append_right p.ending.source
  | atRule a =>
      cases h with
      | atRule hat =>
          have hblank : p.text.dropWhile Text.isAsciiWhite ≠ [] := by
            intro hnil
            rw [← Text.trim_dropWhile_isAsciiWhite, hnil] at hat
            contradiction
          simpa [Node.places, AtRule.read] using shows_start_of_text hblank

/-- The places of a stylesheet show in its blanked text. -/
theorem Document.shows_of_ofBlanked
    {text : List Char} {doc : Document Nat} (h : ofBlanked text = .ok doc) :
    ∀ place ∈ doc.places, Text.Shows 0 text place := by
  rcases ofBlanked_eq_ok_iff.mp h with ⟨pieces, yields, hpieces, hyields, rfl⟩
  intro place hplace
  rcases List.mem_flatMap.mp hplace with ⟨node, hnode, hmem⟩
  have hyield : some node ∈ yields := by simpa using hnode
  obtain ⟨p, hp, hyields⟩ := exists_mem_of_forall₂ hyields _ hyield
  exact hpieces.shows hp (Piece.shows_of_yields hyields place hmem)

theorem Document.boundary_of_read
    {css : List Char} {doc : Document Nat} (h : read css = .ok doc) :
    ∀ place ∈ doc.places, Text.Boundary css place := by
  obtain ⟨text, hblank, hdoc⟩ := bind_eq_ok_iff.mp h
  intro place hplace
  exact Comment.boundary_of_shows hblank (shows_of_ofBlanked hdoc place hplace)

theorem Document.boundary_of_read_eq_error
    {css : List Char} {fault : Fault} (h : read css = .error fault) :
    Text.Boundary css fault.offset := by
  unfold read at h
  cases hblank : Comment.blank css with
  | error fault' =>
      rw [hblank, bind_error] at h
      cases h
      exact Comment.boundary_of_blank_eq_error hblank
  | ok text =>
      rw [hblank, bind_ok] at h
      exact Comment.boundary_of_shows hblank (shows_of_ofBlanked_eq_error h)

/-! ## Lookups -/

/-- The places of the node that a segment yields, if it yields one. -/
def Segment.places (segment : Segment) : List Nat :=
  (Node.ofSegment? segment).toOption.join.toList.flatMap Node.places

theorem Segment.places_eq
    {segment : Segment} {node? : Option (Node Nat)} (h : Node.ofSegment? segment = .ok node?) :
    segment.places = node?.toList.flatMap Node.places := by
  rw [places, h]
  rfl

/-- The byte offsets that are looked up to read glyphs, in this order: the places of
the nodes before the first fault, and then the place of the fault. -/
def lookupsIn (glyphs : List Glyph) : List Nat :=
  match _hfirst : Segment.first? glyphs with
  | .error fault => [fault.offset]
  | .ok none => []
  | .ok (some (segment, rest)) => segment.places ++ lookupsIn rest
  termination_by glyphs.length
  decreasing_by exact Segment.first?_length _hfirst

section LookupsIn

variable {glyphs rest : List Glyph}

theorem lookupsIn_of_error {fault : Fault} (h : Segment.first? glyphs = .error fault) :
    lookupsIn glyphs = [fault.offset] := by
  fun_cases lookupsIn glyphs <;> simp_all

theorem lookupsIn_of_none (h : Segment.first? glyphs = .ok none) : lookupsIn glyphs = [] := by
  fun_cases lookupsIn glyphs <;> simp_all

theorem lookupsIn_of_some
    {segment : Segment} (h : Segment.first? glyphs = .ok (some (segment, rest))) :
    lookupsIn glyphs = segment.places ++ lookupsIn rest := by
  fun_cases lookupsIn glyphs <;> simp_all

end LookupsIn

/-- The byte offsets that are looked up to parse a text, in this order.  They include
those of nodes that are dropped because a fault comes after them. -/
def lookups (css : List Char) : List Nat :=
  match Comment.blank css with
  | .error fault => [fault.offset]
  | .ok text => lookupsIn (Glyph.ofChars text)

end ContrastLint
