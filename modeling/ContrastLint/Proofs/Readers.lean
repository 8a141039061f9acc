import ContrastLint.Proofs.Bytewise
import ContrastLint.Proofs.Locating

/-!
# What readers give

A reader looks up positions on its way.  It gives a result with certain lookups if,
from every coherent locator, it ends with this result, has looked up these offsets
and no others, and leaves a coherent locator behind.  All offsets that it looks up
are character boundaries, and it does nothing it must not.  A reader made of parts
gives what its parts give, with their lookups one after the other, and so does a
loop, round by round.
-/

namespace ContrastLint.Bytewise

variable {α β σ ρ : Type} {text : List Char} {offset limit : Nat} {offsets more : List Nat}

structure Gives (text : List Char) (x : Reader α) (offsets : List Nat)
    (result : Except ParseError α) : Prop where
  boundary : ∀ offset ∈ offsets, Text.Boundary text offset
  run : ∀ q : Inquiry, q.locator.Coherent text →
    ∃ locator : Locator, locator.Coherent text ∧
      x.run.run q = (result.mapError .fault, ⟨locator, q.offsets ++ offsets⟩)

section Parts

variable {x : Reader α} {f : α → Reader β} {g : α → β} {a : α} {b : β} {e : ParseError}
  {halt : Halt ParseError} {q next : Inquiry} {result : Except ParseError β}

theorem run_bind_of_ok (h : x.run.run q = (.ok a, next)) (f : α → Reader β) :
    (x >>= f).run.run q = (f a).run.run next := by
  have hbind : (x >>= f).run.run q =
      (ExceptT.bindCont f (x.run.run q).1).run (x.run.run q).2 := rfl
  rw [hbind, h]
  rfl

theorem run_bind_of_error (h : x.run.run q = (.error halt, next)) (f : α → Reader β) :
    (x >>= f).run.run q = (.error halt, next) := by
  have hbind : (x >>= f).run.run q =
      (ExceptT.bindCont f (x.run.run q).1).run (x.run.run q).2 := rfl
  rw [hbind, h]
  rfl

theorem checked_bind (a : α) (f : α → Reader β) : checked (.ok a) >>= f = f a := rfl

theorem gives_pure (text : List Char) (a : α) : Gives text (pure a) [] (.ok a) where
  boundary := by simp
  run q hq := ⟨q.locator, hq, by rw [List.append_nil]; rfl⟩

theorem gives_throw (text : List Char) (e : ParseError) :
    Gives text (throw (.fault e) : Reader α) [] (.error e) where
  boundary := by simp
  run q hq := ⟨q.locator, hq, by rw [List.append_nil]; rfl⟩

theorem Gives.bind (hx : Gives text x offsets (.ok a)) (hf : Gives text (f a) more result) :
    Gives text (x >>= f) (offsets ++ more) result where
  boundary := List.forall_mem_append.mpr ⟨hx.boundary, hf.boundary⟩
  run q hq := by
    obtain ⟨middle, hmiddle, hrun⟩ := hx.run q hq
    obtain ⟨locator, hlocator, hrest⟩ := hf.run ⟨middle, q.offsets ++ offsets⟩ hmiddle
    refine ⟨locator, hlocator, ?_⟩
    rw [run_bind_of_ok hrun, hrest, List.append_assoc]

/-- Nothing is looked up where a result is only put together. -/
theorem Gives.bind_pure (hx : Gives text x offsets (.ok a)) (hf : f a = pure b) :
    Gives text (x >>= f) offsets (.ok b) := by
  have hpure := gives_pure text b
  rw [← hf] at hpure
  rw [← List.append_nil offsets]
  exact hx.bind hpure

theorem Gives.bind_error (hx : Gives text x offsets (.error e)) (f : α → Reader β) :
    Gives text (x >>= f) offsets (.error e) where
  boundary := hx.boundary
  run q hq := by
    obtain ⟨locator, hlocator, hrun⟩ := hx.run q hq
    exact ⟨locator, hlocator, run_bind_of_error hrun f⟩

theorem Gives.map {result : Except ParseError α} (hx : Gives text x offsets result) (g : α → β) :
    Gives text (g <$> x) offsets (g <$> result) := by
  rw [map_eq_pure_bind]
  cases result with
  | error e => exact hx.bind_error _
  | ok a => exact hx.bind_pure rfl

/-- A reader made of two parts ends well only if both do. -/
theorem exists_of_run_bind (h : (x >>= f).run.run q = (.ok b, next)) :
    ∃ a middle, x.run.run q = (.ok a, middle) ∧ (f a).run.run middle = (.ok b, next) := by
  rcases hx : x.run.run q with ⟨_ | a, middle⟩
  · rw [run_bind_of_error hx] at h
    cases h
  · rw [run_bind_of_ok hx] at h
    exact ⟨a, middle, rfl, h⟩

theorem eq_of_run_checked
    {y : Checked Fault α} (h : (checked y).run.run q = (.ok a, next)) : y = .ok a := by
  match y with
  | .ok b =>
      cases h
      rfl
  | .error (.trap t) => cases h
  | .error (.fault fault) =>
      obtain ⟨place, middle, -, hthrow⟩ := exists_of_run_bind h
      cases hthrow

end Parts

/-! ## Positions -/

/-- The table of lines has the line of a place where a character begins. -/
theorem entry_lines {loc : Locator} {before rest : List Char} {ε : Type}
    (h : loc.Coherent (before ++ rest)) :
    (entry loc.lines.toList (before.count '\n') : Checked ε Point) =
      .ok (loc.lineStart (1 + before.count '\n')) := by
  have hsize := h.count_lt_size
  rw [entry, Array.getElem?_toList, Array.getElem?_eq_getElem hsize, Locator.lineStart,
    Nat.add_sub_cancel_left, Array.getD_eq_getD_getElem?, Array.getElem?_eq_getElem hsize]
  rfl

/-- Where a character begins, no lookup does what it must not. -/
theorem seek_eq {loc : Locator} {before rest : List Char} (h : loc.Coherent (before ++ rest)) :
    seek loc (Text.byteLength before) =
      .ok (.after before, { loc with cursor := .after before rest }) := by
  rw [← h.locate_eq]
  have hentry := entry_lines (ε := ParseError) h
  obtain ⟨near, far, rfl, -, horigin⟩ := h.exists_origin
  have hbound : min (Text.byteLength (near ++ far)) loc.size = Text.byteLength (near ++ far) := by
    rw [h.size, Text.byteLength_append (near ++ far)]
    omega
  have hline := h.lineOf_eq
  have horder : (Point.after near (far ++ rest)).offset ≤ Text.byteLength (near ++ far) := by
    simp [Point.after]
  simp only [StateT.run, seek, Locator.locate, hbound, hline, Nat.add_sub_cancel_left,
    subtract_of_le (Nat.le_add_right 1 _), bind_ok, hentry, horigin, subtract_of_le horder]
  rfl

theorem run_position_of_seek
    {q : Inquiry} {place : Position} {locator : Locator}
    (h : seek q.locator offset = .ok (place, locator)) :
    (position offset).run.run q = (.ok place, ⟨locator, q.offsets ++ [offset]⟩) := by
  have hrun : (position offset).run.run q = position offset q := rfl
  rw [hrun, position, h]

theorem gives_position (h : Text.Boundary text offset) :
    Gives text (position offset) [offset] (.ok (Position.locate text offset)) where
  boundary := List.forall_mem_singleton.mpr h
  run := by
    obtain ⟨before, ⟨rest, rfl⟩, rfl⟩ := h
    intro q hq
    have hlocator := hq.locate
    rw [hq.locate_eq] at hlocator
    refine ⟨_, hlocator, ?_⟩
    rw [run_position_of_seek (seek_eq hq), Position.locate_eq (List.prefix_append before rest)]
    rfl

theorem gives_checked_fault {fault : Fault} (h : Text.Boundary text fault.offset) :
    Gives text (checked (raise fault) : Reader α) [fault.offset]
      (.error (fault.locate text)) :=
  (gives_position h).bind (gives_throw text _)

/-! ## Loops -/

section Loops

variable {body : σ → Nat → Reader (Round σ ρ)} {finish : σ → Reader ρ} {s s' : σ} {i i' : Nat}
  {r : ρ} {e : ParseError} {result : Except ParseError ρ}

theorem loop_of_le (h : limit ≤ i) : loop limit body finish s i = finish s := by
  rw [loop, if_neg (by omega)]

theorem gives_loop_next
    (hi : i < limit) (hbody : Gives text (body s i) offsets (.ok (.next s' i'))) (hlt : i < i')
    (hrest : Gives text (loop limit body finish s' i') more result) :
    Gives text (loop limit body finish s i) (offsets ++ more) result := by
  rw [loop, if_pos hi]
  apply hbody.bind
  simp only [if_pos hlt]
  exact hrest

theorem gives_loop_done
    (hi : i < limit) (hbody : Gives text (body s i) offsets (.ok (.done r))) :
    Gives text (loop limit body finish s i) offsets (.ok r) := by
  rw [loop, if_pos hi]
  exact hbody.bind_pure rfl

theorem gives_loop_error
    (hi : i < limit) (hbody : Gives text (body s i) offsets (.error e)) :
    Gives text (loop limit body finish s i) offsets (.error e) := by
  rw [loop, if_pos hi]
  exact hbody.bind_error _

end Loops

end ContrastLint.Bytewise
