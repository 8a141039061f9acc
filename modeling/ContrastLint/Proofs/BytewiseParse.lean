import ContrastLint.Proofs.BytewiseParts
import ContrastLint.Proofs.Places
import ContrastLint.Proofs.Rounds
import ContrastLint.Proofs.Stripping

/-!
# Stylesheets over bytes

The reader over bytes reads every text as the reader over glyphs does.  It ends,
with the same document or the same fault, and does nothing on the way that it
must not: a round of it always finds the first segment of the glyphs and goes on
behind it.  It looks up where nodes and declarations stand as it meets them, also
those before a fault.
-/

namespace ContrastLint.Bytewise

open Glyph Segment

variable {css text inner beyond : List Char} {limit start stop i : Nat}

/-! ## Rules -/

section Body

variable {declarations : List (Declaration Position)} {sign : Option UInt8}

theorem ruleBody_of_blank (hskip : skipBlanks text i limit = .ok start) (hend : limit ≤ start) :
    ruleBody text limit declarations i = pure (.done declarations) := by
  rw [ruleBody, hskip, checked_bind, if_pos hend]

theorem ruleBody_of_block
    {close : Nat} (hskip : skipBlanks text i limit = .ok start) (hlt : start < limit)
    (hscan : scan text bodyStops start limit = .ok (stop, some '{'.toUInt8))
    (hblock : findBlockEnd text stop = .ok close) :
    ruleBody text limit declarations i = pure (.next declarations (close + 1)) := by
  rw [ruleBody, hskip, checked_bind, if_neg (by omega), hscan, checked_bind]
  simp only [if_true, hblock, checked_bind]

theorem ruleBody_of_declaration
    (hskip : skipBlanks text i limit = .ok start) (hlt : start < limit)
    (hscan : scan text bodyStops start limit = .ok (stop, sign)) (hsign : sign ≠ some '{'.toUInt8) :
    ruleBody text limit declarations i = (do
      let declared ← declaration text start stop
      return .next (declarations ++ declared.toList) (stop + 1)) := by
  rw [ruleBody, hskip, checked_bind, if_neg (by omega), hscan, checked_bind]
  simp only [if_neg hsign]

theorem map_filterMap_cons {α β γ : Type} (f : α → Option β) (g : β → γ) (a : α) (as : List α) :
    ((a :: as).filterMap f).map g = ((f a).map g).toList ++ (as.filterMap f).map g := by
  cases h : f a <;> simp [h]

/-- A declaration with positions. -/
abbrev located (css : List Char) (d : Declaration Nat) : Declaration Position :=
  d.map (Position.locate css)

theorem gives_ruleBody_of_declaration
    {raw rest : List Char} (hblank : Comment.blank css = .ok text)
    (hskip : skipBlanks text i limit = .ok start) (hlt : start < limit)
    (hscan : scan text bodyStops start limit = .ok (stop, sign)) (hsign : sign ≠ some '{'.toUInt8)
    (hat : At text start (raw ++ rest)) (hstop : stop = start + Text.byteLength raw) :
    Gives css (ruleBody text limit declarations i)
      ((Declaration.ofSegment? ⟨start, ofCharsFrom none start raw, none⟩).map (·.place)).toList
      (.ok (.next
        (declarations ++
          ((Declaration.ofSegment? ⟨start, ofCharsFrom none start raw, none⟩).map
            (located css)).toList)
        (stop + 1))) := by
  rw [ruleBody_of_declaration hskip hlt hscan hsign]
  exact (gives_declaration hblank hat hstop).bind_pure rfl

theorem exists_first?_of_cut
    {glyphs : List Glyph} {segments : List Segment} (h : cut glyphs = .ok segments) :
    ∃ found, first? glyphs = .ok found := by
  cases hfirst : first? glyphs with
  | error fault =>
      rw [cut_of_error hfirst] at h
      contradiction
  | ok found => exact ⟨found, rfl⟩

theorem gives_body
    {segments : List Segment} (hblank : Comment.blank css = .ok text)
    (h : At text i (inner ++ beyond)) (hlimit : limit = i + Text.byteLength inner)
    (hcut : cut (ofCharsFrom none i inner) = .ok segments) :
    Gives css (loop limit (ruleBody text limit) pure declarations i)
      ((segments.filterMap Declaration.ofSegment?).map (·.place))
      (.ok (declarations ++ (segments.filterMap Declaration.ofSegment?).map (located css))) := by
  induction hlength : inner.length using Nat.strongRecOn
    generalizing declarations i inner segments with
  | ind n ih =>
      by_cases hi : i < limit
      · have hturn : Turn text beyond bodyStops limit i inner (first? (ofCharsFrom none i inner)) :=
          turn h hlimit (.inr ⟨rfl, exists_first?_of_cut hcut⟩)
        generalize hfirst : first? (ofCharsFrom none i inner) = first at hturn
        cases hturn with
        | blank hskip hend =>
            rw [cut_of_none hfirst] at hcut
            cases hcut
            rw [List.filterMap_nil, List.map_nil, List.map_nil, List.append_nil]
            apply gives_loop_done hi
            rw [ruleBody_of_blank hskip hend]
            exact gives_pure css _
        | @found start c tail rest _ hskip hle hlt hrest hc hshort hat hfinds =>
            cases hfinds with
            | fault | close | unclosed =>
                rw [cut_of_error hfirst] at hcut
                contradiction
            | last hend hscan =>
                rw [cut_of_some hfirst, cut_nil] at hcut
                cases hcut
                rw [map_filterMap_cons, map_filterMap_cons, ← List.append_assoc]
                apply gives_loop_next hi
                  (gives_ruleBody_of_declaration hblank hskip hlt hscan (by simp) hat hend)
                  (by omega)
                rw [loop_of_le (by omega), List.filterMap_nil, List.map_nil, List.map_nil,
                  List.append_nil]
                exact gives_pure css _
            | @semicolon a b stop hstop hend hscan hnext =>
                rw [cut_of_some hfirst] at hcut
                obtain ⟨segments, hrest, rfl⟩ := map_eq_ok_iff.mp hcut
                rw [List.append_assoc] at hat
                rw [List.length_append, List.length_cons] at hshort
                rw [map_filterMap_cons, map_filterMap_cons, ← List.append_assoc]
                apply gives_loop_next hi
                  (gives_ruleBody_of_declaration hblank hskip hlt hscan (by decide) hat hstop)
                  (by omega)
                exact ih b.length (by omega) hnext (by omega) hrest rfl
            | @block a body b stop close hstop hclose hend hscan hblock hbody hnext hbalance =>
                rw [cut_of_some hfirst] at hcut
                obtain ⟨segments, hrest, rfl⟩ := map_eq_ok_iff.mp hcut
                rw [List.length_append, List.length_cons, List.length_append,
                  List.length_cons] at hshort
                rw [map_filterMap_cons, map_filterMap_cons]
                refine gives_loop_next hi ?_ (by omega)
                  (ih b.length (by omega) hnext (by omega) hrest rfl)
                rw [ruleBody_of_block hskip hlt hscan hblock]
                exact gives_pure css _
      · have hempty : inner = [] := Text.byteLength_eq_zero_iff.mp (by omega)
        subst hempty
        rw [show ofCharsFrom none i [] = [] from rfl, cut_nil] at hcut
        cases hcut
        rw [loop_of_le (by omega), List.filterMap_nil, List.map_nil, List.map_nil, List.append_nil]
        exact gives_pure css declarations

end Body

theorem gives_rule
    {body rest : List Char} {bodyStart bodyEnd : Nat} (selector : List Char)
    (hblank : Comment.blank css = .ok text) (hstart : Text.Boundary css start)
    (hbody : At text bodyStart (body ++ rest)) (hend : bodyEnd = bodyStart + Text.byteLength body)
    (hbalance : Glyph.balance 0 0 (ofCharsFrom none bodyStart body) = .ok ()) :
    ∃ r, Rule.read selector (ofCharsFrom none bodyStart body) start = .ok r ∧
      Gives css (rule text selector bodyStart bodyEnd start) (Node.rule r).places
        (.ok (r.map (Position.locate css))) := by
  obtain ⟨r, hread⟩ := Rule.exists_read selector start
    (Glyph.blanksOrdinary_ofCharsFrom none bodyStart body) hbalance
  refine ⟨r, hread, ?_⟩
  obtain ⟨segments, hcut, heq⟩ := bind_eq_ok_iff.mp hread
  cases heq
  exact (gives_position hstart).bind ((gives_body hblank hbody hend hcut).bind_pure rfl)

/-! ## Nodes -/

section Nodes

variable {a body rest : List Char} {close : Nat} {segment : Segment}

theorem ofSegment?_of_at (h : Text.trim (chars segment.text) = '@' :: rest) :
    Node.ofSegment? segment =
      .ok (some (.atRule (.read rest (segment.block.map chars) segment.offset))) := by
  rw [Node.ofSegment?, h]
  cases segment.block <;> rfl

theorem ofSegment?_of_block
    {glyphs : List Glyph} (h : ∀ rest, Text.trim (chars segment.text) ≠ '@' :: rest)
    (hblock : segment.block = some glyphs) :
    Node.ofSegment? segment =
      (some ∘ .rule) <$> Rule.read (Text.trim (chars segment.text)) glyphs segment.offset := by
  rw [Node.ofSegment?, hblock]
  split
  · next hat => exact absurd hat (h _)
  · next heq _ =>
      cases heq
      rfl
  · contradiction

theorem ofSegment?_of_plain
    (h : ∀ rest, Text.trim (chars segment.text) ≠ '@' :: rest) (hblock : segment.block = none) :
    Node.ofSegment? segment = .ok ((Declaration.ofGlyphs? segment.text).map .declaration) := by
  rw [Node.ofSegment?, hblock]
  split
  · next hat => exact absurd hat (h _)
  · contradiction
  · rfl

theorem blockNode_of_at
    (hslice : (slice text start stop : Checked Fault _) = .ok a)
    (hinner : (slice text (stop + 1) close : Checked Fault _) = .ok body)
    (h : Text.trim a = '@' :: rest) :
    blockNode text start stop close = .atRule <$> atRule rest (some body) start := by
  rw [blockNode, hslice, checked_bind, h]
  simp only [hinner, checked_bind]

theorem blockNode_of_rule
    (hslice : (slice text start stop : Checked Fault _) = .ok a)
    (h : ∀ rest, Text.trim a ≠ '@' :: rest) :
    blockNode text start stop close =
      .rule <$> rule text (Text.trim a) (stop + 1) close start := by
  rw [blockNode, hslice, checked_bind]
  split
  · next hat => exact absurd hat (h _)
  · rfl

theorem plainNode?_of_at
    (hslice : (slice text start stop : Checked Fault _) = .ok a)
    (h : Text.trim a = '@' :: rest) :
    plainNode? text start stop = (fun a => some (.atRule a)) <$> atRule rest none start := by
  rw [plainNode?, hslice, checked_bind, h]
  rfl

theorem plainNode?_of_declaration
    (hslice : (slice text start stop : Checked Fault _) = .ok a)
    (h : ∀ rest, Text.trim a ≠ '@' :: rest) :
    plainNode? text start stop = (fun d => d.map .declaration) <$> declaration text start stop := by
  rw [plainNode?, hslice, checked_bind]
  split
  · next hat => exact absurd hat (h _)
  · rfl

theorem gives_blockNode
    (hblank : Comment.blank css = .ok text)
    (hstart : Text.Boundary css start) (hat : At text start (a ++ '{' :: (body ++ rest)))
    (hstop : stop = start + Text.byteLength a) (hclose : close = stop + 1 + Text.byteLength body)
    (hbalance : Glyph.balance 0 0 (ofCharsFrom none (stop + 1) body) = .ok ()) :
    ∃ node,
      Node.ofSegment?
          ⟨start, ofCharsFrom none start a, some (ofCharsFrom none (stop + 1) body)⟩ =
        .ok (some node) ∧
      Gives css (blockNode text start stop close) node.places
        (.ok (node.map (Position.locate css))) := by
  have hbody : At text (stop + 1) (body ++ rest) := hstop ▸ hat.append.next
  have hslice := slice_of_at (ε := Fault) hat
  have hinner := slice_of_at (ε := Fault) hbody
  have hchars : chars (ofCharsFrom none start a) = a := chars_ofCharsFrom none start a
  rw [← hstop] at hslice
  rw [← hclose] at hinner
  by_cases hname : ∃ tail, Text.trim a = '@' :: tail
  · obtain ⟨tail, hname⟩ := hname
    refine ⟨_, ofSegment?_of_at (by rw [hchars, hname]), ?_⟩
    rw [blockNode_of_at hslice hinner hname, Option.map_some, chars_ofCharsFrom]
    exact (gives_atRule tail (some body) hstart).map Node.atRule
  · have hother : ∀ tail, Text.trim a ≠ '@' :: tail := fun tail h => hname ⟨tail, h⟩
    obtain ⟨r, hread, hgives⟩ :=
      gives_rule (Text.trim a) hblank hstart hbody hclose hbalance
    refine ⟨.rule r, ?_, ?_⟩
    · rw [ofSegment?_of_block (by rw [hchars]; exact hother) rfl, hchars, hread]
      rfl
    · rw [blockNode_of_rule hslice hother]
      exact hgives.map Node.rule

theorem gives_plainNode?
    (hblank : Comment.blank css = .ok text)
    (hstart : Text.Boundary css start) (hat : At text start (a ++ rest))
    (hstop : stop = start + Text.byteLength a) :
    ∃ node?, Node.ofSegment? ⟨start, ofCharsFrom none start a, none⟩ = .ok node? ∧
      Gives css (plainNode? text start stop) (node?.toList.flatMap Node.places)
        (.ok (node?.map (·.map (Position.locate css)))) := by
  have hslice := slice_of_at (ε := Fault) hat
  have hchars : chars (ofCharsFrom none start a) = a := chars_ofCharsFrom none start a
  rw [← hstop] at hslice
  by_cases hname : ∃ tail, Text.trim a = '@' :: tail
  · obtain ⟨tail, hname⟩ := hname
    refine ⟨_, ofSegment?_of_at (by rw [hchars, hname]), ?_⟩
    rw [plainNode?_of_at hslice hname]
    exact (gives_atRule tail none hstart).map fun a => some (Node.atRule a)
  · have hother : ∀ tail, Text.trim a ≠ '@' :: tail := fun tail h => hname ⟨tail, h⟩
    refine ⟨_, ofSegment?_of_plain (by rw [hchars]; exact hother) rfl, ?_⟩
    rw [plainNode?_of_declaration hslice hother]
    have hdeclared := (gives_declaration hblank hat hstop).map
      fun d : Option (Declaration Position) => d.map Node.declaration
    have hplaces : ((Declaration.ofGlyphs? (ofCharsFrom none start a)).map
        Node.declaration).toList.flatMap Node.places =
          ((Declaration.ofGlyphs? (ofCharsFrom none start a)).map (·.place)).toList := by
      cases Declaration.ofGlyphs? (ofCharsFrom none start a) <;> rfl
    have hnode : ((Declaration.ofGlyphs? (ofCharsFrom none start a)).map Node.declaration).map
        (·.map (Position.locate css)) =
          ((Declaration.ofGlyphs? (ofCharsFrom none start a)).map (located css)).map
            Node.declaration := by
      cases Declaration.ofGlyphs? (ofCharsFrom none start a) <;> rfl
    rw [hplaces, hnode]
    exact hdeclared

end Nodes

/-! ## Sheets -/

/-- The nodes of the segments of a stylesheet. -/
def nodesOf (segments : Except Fault (List Segment)) : Except Fault (List (Node Nat)) := do
  let segments ← segments
  let nodes ← segments.mapM Node.ofSegment?
  return nodes.filterMap id

/-- Nodes with positions after others, or the position of a fault. -/
def withPositions (css : List Char) (nodes : List (Node Position))
    (result : Except Fault (List (Node Nat))) : Except ParseError (List (Node Position)) :=
  (fun more => nodes ++ more.map (·.map (Position.locate css))) <$>
    result.mapError (Fault.locate css)

/-- A fault in a cut of a blanked text is at a boundary of the given one. -/
def FaultAtBoundary (css : List Char) (segments : Except Fault (List Segment)) : Prop :=
  ∀ fault, segments = .error fault → Text.Boundary css fault.offset

theorem FaultAtBoundary.of_map
    {f : List Segment → List Segment} {segments : Except Fault (List Segment)}
    (h : FaultAtBoundary css (f <$> segments)) : FaultAtBoundary css segments := by
  rintro fault rfl
  exact h fault rfl

section Sheet

variable {nodes : List (Node Position)} {sign : Option UInt8}

theorem nodesOf_cons
    {segment : Segment} {node? : Option (Node Nat)} (h : Node.ofSegment? segment = .ok node?)
    (segments : Except Fault (List Segment)) :
    nodesOf ((segment :: ·) <$> segments) = (node?.toList ++ ·) <$> nodesOf segments := by
  cases segments with
  | error fault => rfl
  | ok segments =>
      have hcons : nodesOf (.ok (segment :: segments)) = do
          let nodes ← (segment :: segments).mapM Node.ofSegment?
          return nodes.filterMap id := rfl
      refine hcons.trans ?_
      rw [List.mapM_cons, h, bind_ok]
      have hrest : nodesOf (.ok segments) = do
          let nodes ← segments.mapM Node.ofSegment?
          return nodes.filterMap id := rfl
      rw [hrest]
      cases segments.mapM Node.ofSegment? with
      | error fault => rfl
      | ok nodes => cases node? <;> rfl

theorem withPositions_nil : withPositions css nodes (nodesOf (.ok [])) = .ok nodes := by
  have happend : withPositions css nodes (nodesOf (.ok [])) = .ok (nodes ++ []) := rfl
  rw [happend, List.append_nil]

theorem withPositions_map (more : List (Node Nat)) (result : Except Fault (List (Node Nat))) :
    withPositions css nodes ((more ++ ·) <$> result) =
      withPositions css (nodes ++ more.map (·.map (Position.locate css))) result := by
  cases result with
  | error fault => rfl
  | ok rest => simp [withPositions, Except.mapError]

theorem sheetBody_of_blank (hskip : skipBlanks text i limit = .ok start) (hend : limit ≤ start) :
    sheetBody text limit nodes i = pure (.done nodes) := by
  rw [sheetBody, hskip, checked_bind, if_pos hend]

theorem sheetBody_of_found
    (hskip : skipBlanks text i limit = .ok start) (hlt : start < limit)
    (hscan : scan text sheetStops start limit = .ok (stop, sign)) :
    sheetBody text limit nodes i =
      if sign = some '{'.toUInt8 then do
        let close ← checked (findBlockEnd text stop)
        let node ← blockNode text start stop close
        return .next (nodes ++ [node]) (close + 1)
      else if sign = some '}'.toUInt8 then
        checked (raise ⟨.unexpectedClose, stop⟩)
      else do
        let node? ← plainNode? text start stop
        return .next (nodes ++ node?.toList) (stop + 1) := by
  rw [sheetBody, hskip, checked_bind, if_neg (by omega), hscan, checked_bind]

theorem gives_sheetBody_of_fault
    {fault : Fault} (hskip : skipBlanks text i limit = .ok start) (hlt : start < limit)
    (hscan : scan text sheetStops start limit = raise fault)
    (hfault : Text.Boundary css fault.offset) :
    Gives css (sheetBody text limit nodes i) [fault.offset] (.error (fault.locate css)) := by
  rw [sheetBody, hskip, checked_bind, if_neg (by omega), hscan]
  exact (gives_checked_fault hfault).bind_error _

theorem gives_sheetBody_of_plain
    {a rest : List Char} (nodes : List (Node Position)) (hblank : Comment.blank css = .ok text)
    (hskip : skipBlanks text i limit = .ok start) (hlt : start < limit)
    (hscan : scan text sheetStops start limit = .ok (stop, sign))
    (hsign : sign ≠ some '{'.toUInt8 ∧ sign ≠ some '}'.toUInt8)
    (hstart : Text.Boundary css start) (hat : At text start (a ++ rest))
    (hstop : stop = start + Text.byteLength a) :
    ∃ node?, Node.ofSegment? ⟨start, ofCharsFrom none start a, none⟩ = .ok node? ∧
      Gives css (sheetBody text limit nodes i) (node?.toList.flatMap Node.places)
        (.ok (.next (nodes ++ node?.toList.map (·.map (Position.locate css))) (stop + 1))) := by
  obtain ⟨node?, hnode, hgives⟩ := gives_plainNode? hblank hstart hat hstop
  refine ⟨node?, hnode, ?_⟩
  rw [sheetBody_of_found hskip hlt hscan, if_neg hsign.1, if_neg hsign.2, ← Option.toList_map]
  exact hgives.bind_pure rfl

theorem gives_sheetBody_of_block
    {a body rest : List Char} {close : Nat} (nodes : List (Node Position))
    (hblank : Comment.blank css = .ok text)
    (hskip : skipBlanks text i limit = .ok start) (hlt : start < limit)
    (hscan : scan text sheetStops start limit = .ok (stop, some '{'.toUInt8))
    (hblock : findBlockEnd text stop = .ok close)
    (hstart : Text.Boundary css start) (hat : At text start (a ++ '{' :: (body ++ rest)))
    (hstop : stop = start + Text.byteLength a) (hclose : close = stop + 1 + Text.byteLength body)
    (hbalance : Glyph.balance 0 0 (ofCharsFrom none (stop + 1) body) = .ok ()) :
    ∃ node,
      Node.ofSegment?
          ⟨start, ofCharsFrom none start a, some (ofCharsFrom none (stop + 1) body)⟩ =
        .ok (some node) ∧
      Gives css (sheetBody text limit nodes i) node.places
        (.ok (.next (nodes ++ [node.map (Position.locate css)]) (close + 1))) := by
  obtain ⟨node, hnode, hgives⟩ := gives_blockNode hblank hstart hat hstop hclose hbalance
  refine ⟨node, hnode, ?_⟩
  rw [sheetBody_of_found hskip hlt hscan, if_pos rfl, hblock, checked_bind]
  exact hgives.bind_pure rfl

theorem gives_sheet_of_le (hend : limit ≤ i) :
    Gives css (loop limit (sheetBody text limit) pure nodes i) []
      (withPositions css nodes (nodesOf (.ok []))) := by
  rw [withPositions_nil, loop_of_le hend]
  exact gives_pure css nodes

theorem gives_sheet
    (nodes : List (Node Position)) (hblank : Comment.blank css = .ok text) (h : At text i inner)
    (hlimit : limit = i + Text.byteLength inner)
    (hfault : FaultAtBoundary css (cut (ofCharsFrom none i inner))) :
    Gives css (loop limit (sheetBody text limit) pure nodes i)
      (lookupsIn (ofCharsFrom none i inner))
      (withPositions css nodes (nodesOf (cut (ofCharsFrom none i inner)))) := by
  induction hlength : inner.length using Nat.strongRecOn generalizing nodes i inner with
  | ind n ih =>
      by_cases hi : i < limit
      · have hwhole : At text i (inner ++ []) := by rwa [List.append_nil]
        have hturn : Turn text [] sheetStops limit i inner (first? (ofCharsFrom none i inner)) :=
          turn hwhole hlimit (.inl ⟨rfl, rfl⟩)
        generalize hfirst : first? (ofCharsFrom none i inner) = first at hturn
        cases hturn with
        | blank hskip hend =>
            rw [lookupsIn_of_none hfirst, cut_of_none hfirst, withPositions_nil]
            apply gives_loop_done hi
            rw [sheetBody_of_blank hskip hend]
            exact gives_pure css _
        | @found start c tail rest _ hskip hle hlt hrest hc hshort hat hfinds =>
            have hstart : Text.Boundary css start := by
              rw [hrest] at hat
              exact At.boundary hat hblank hc
            cases hfinds with
            | fault hscan =>
                rw [cut_of_error hfirst] at hfault
                rw [lookupsIn_of_error hfirst, cut_of_error hfirst]
                exact gives_loop_error hi
                  (gives_sheetBody_of_fault hskip hlt hscan (hfault _ rfl))
            | close hscan =>
                rw [cut_of_error hfirst] at hfault
                rw [lookupsIn_of_error hfirst, cut_of_error hfirst]
                apply gives_loop_error hi
                rw [sheetBody_of_found hskip hlt hscan, if_neg (by decide), if_pos rfl]
                exact gives_checked_fault (hfault _ rfl)
            | unclosed hscan hblock =>
                rw [cut_of_error hfirst] at hfault
                rw [lookupsIn_of_error hfirst, cut_of_error hfirst]
                apply gives_loop_error hi
                rw [sheetBody_of_found hskip hlt hscan, if_pos rfl, hblock]
                exact (gives_checked_fault (hfault _ rfl)).bind_error _
            | last hend hscan =>
                obtain ⟨node?, hnode, hround⟩ := gives_sheetBody_of_plain nodes hblank
                  hskip hlt hscan (by decide) hstart hat hend
                rw [lookupsIn_of_some hfirst, Segment.places_eq hnode, cut_of_some hfirst,
                  nodesOf_cons hnode, withPositions_map, cut_nil,
                  lookupsIn_of_none (first?_of_blank rfl)]
                exact gives_loop_next hi hround (by omega) (gives_sheet_of_le (by omega))
            | @semicolon a b stop hstop hend hscan hnext =>
                rw [List.append_nil] at hat hnext
                rw [List.length_append, List.length_cons] at hshort
                obtain ⟨node?, hnode, hround⟩ := gives_sheetBody_of_plain nodes hblank
                  hskip hlt hscan (by decide) hstart hat hstop
                rw [cut_of_some hfirst] at hfault
                rw [lookupsIn_of_some hfirst, Segment.places_eq hnode, cut_of_some hfirst,
                  nodesOf_cons hnode, withPositions_map]
                apply gives_loop_next hi hround (by omega)
                exact ih b.length (by omega) _ hnext (by omega) hfault.of_map rfl
            | @block a body b stop close hstop hclose hend hscan hblock hbody hnext hbalance =>
                rw [List.append_assoc, List.cons_append, List.append_assoc] at hat
                rw [List.append_nil] at hnext
                rw [List.length_append, List.length_cons, List.length_append,
                  List.length_cons] at hshort
                obtain ⟨node, hnode, hround⟩ := gives_sheetBody_of_block nodes hblank
                  hskip hlt hscan hblock hstart hat hstop hclose hbalance
                rw [cut_of_some hfirst] at hfault
                rw [lookupsIn_of_some hfirst, Segment.places_eq hnode, cut_of_some hfirst,
                  nodesOf_cons hnode, withPositions_map, Option.toList_some,
                  List.flatMap_singleton]
                apply gives_loop_next hi hround (by omega)
                exact ih b.length (by omega) _ hnext (by omega) hfault.of_map rfl
      · have hempty : inner = [] := Text.byteLength_eq_zero_iff.mp (by omega)
        subst hempty
        rw [show ofCharsFrom none i [] = [] from rfl, cut_nil,
          lookupsIn_of_none (first?_of_blank rfl)]
        exact gives_sheet_of_le (by omega)

end Sheet

/-! ## Texts -/

theorem ofBlanked_eq (text : List Char) :
    Document.ofBlanked text = Document.mk <$> nodesOf (cut (ofChars text)) := by
  rw [Document.ofBlanked, nodesOf]
  cases cut (ofChars text) with
  | error fault => rfl
  | ok segments =>
      rw [bind_ok, bind_ok]
      cases segments.mapM Node.ofSegment? <;> rfl

theorem gives_document (hblank : Comment.blank css = .ok text) :
    Gives css (document text) (lookupsIn (ofChars text))
      (Document.mk <$> withPositions css [] (nodesOf (cut (ofChars text)))) := by
  have hlimit : (bytes text).length = 0 + Text.byteLength text := by
    rw [length_bytes, Nat.zero_add]
  have hfault : FaultAtBoundary css (cut (ofChars text)) := by
    intro fault hcut
    apply Document.boundary_of_read_eq_error
    rw [Document.read, hblank, bind_ok, ofBlanked_eq, hcut]
    rfl
  have hsheet := gives_sheet [] hblank (at_zero text) hlimit hfault
  rw [document, ← map_eq_pure_bind]
  exact hsheet.map Document.mk

theorem gives_parse (css : String) :
    Gives css.toList (sheet css.toList) (ContrastLint.lookups css.toList)
      (ContrastLint.parse css) := by
  rw [sheet, ContrastLint.lookups, stripComments_eq]
  cases hblank : Comment.blank css.toList with
  | error fault =>
      have hread : Document.read css.toList = .error fault := by
        rw [Document.read, hblank, bind_error]
      have hparse : ContrastLint.parse css = .error (fault.locate css.toList) := by
        rw [ContrastLint.parse, hread]
      rw [hparse]
      exact (gives_checked_fault (Comment.boundary_of_blank_eq_error hblank)).bind_error _
  | ok text =>
      have hread : Document.read css.toList = Document.mk <$> nodesOf (cut (ofChars text)) := by
        rw [Document.read, hblank, bind_ok, ofBlanked_eq]
      have hparse : ContrastLint.parse css =
          Document.mk <$> withPositions css.toList [] (nodesOf (cut (ofChars text))) := by
        rw [ContrastLint.parse]
        cases hnodes : nodesOf (cut (ofChars text)) with
        | error fault =>
            rw [hnodes] at hread
            rw [hread]
            rfl
        | ok nodes =>
            rw [hnodes] at hread
            rw [hread]
            have hplaces := Document.locate_eq_map (Document.boundary_of_read hread)
            exact congrArg Except.ok hplaces
      rw [hparse]
      exact (gives_pure css.toList text).bind (gives_document hblank)

theorem parse_eq (css : String) : parse css = (ContrastLint.parse css).mapError .fault := by
  obtain ⟨locator, -, hrun⟩ :=
    (gives_parse css).run ⟨.ofText css.toList, []⟩ (Locator.coherent_ofText css.toList)
  rw [parse, hrun]

/-- Whatever the text, its bytes are read without an index, a slice or a difference
out of bounds and without a loop that does not advance, and what is read is what
the reader over glyphs reads. -/
theorem parse_never_traps (css : String) :
    (∀ t : Trap, parse css ≠ .error (.trap t)) ∧
      parse css = (ContrastLint.parse css).mapError .fault := by
  refine ⟨?_, parse_eq css⟩
  intro t htrap
  rw [parse_eq] at htrap
  cases hparse : ContrastLint.parse css with
  | error e =>
      rw [hparse] at htrap
      cases htrap
  | ok doc =>
      rw [hparse] at htrap
      cases htrap

end ContrastLint.Bytewise
