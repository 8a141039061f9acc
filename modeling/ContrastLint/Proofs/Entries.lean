import Mathlib.Tactic

/-!
# Entries by name

Directories, objects of data and palettes are lists of named entries.  If no two
entries have the same name, each is found under its name.  Names in ascending
order are distinct, and a list in this order is determined by what is found in it.
-/

namespace ContrastLint.Entries

variable {Value : Type} {entries others : List (String × Value)} {name : String} {value : Value}

def Ascending (entries : List (String × Value)) : Prop :=
  entries.Pairwise fun a b => a.1 < b.1

theorem lookup_cons_of_ne {entry : String × Value} (h : name ≠ entry.1) :
    (entry :: entries).lookup name = entries.lookup name := by
  have hbeq : (name == entry.1) = false := by simpa using h
  rw [List.lookup_cons, hbeq]

theorem lookup_eq_some_iff (hdistinct : (entries.map Prod.fst).Nodup) :
    entries.lookup name = some value ↔ (name, value) ∈ entries := by
  induction entries with
  | nil => simp
  | cons entry entries ih =>
      obtain ⟨hnew, hrest⟩ := List.nodup_cons.mp hdistinct
      rw [List.mem_cons]
      by_cases hname : name = entry.1
      · subst hname
        rw [List.lookup_cons_self]
        have hother : (entry.1, value) ∉ entries :=
          fun hmem => hnew (List.mem_map.mpr ⟨_, hmem, rfl⟩)
        simp [hother, Prod.ext_iff, eq_comm]
      · rw [lookup_cons_of_ne hname, ih hrest]
        simp [hname, Prod.ext_iff]

theorem lookup_isSome_iff :
    (entries.lookup name).isSome = true ↔ name ∈ entries.map Prod.fst := by
  simp only [List.lookup_isSome_iff, beq_iff_eq, List.mem_map, eq_comm (a := name)]

namespace Ascending

theorem nodup (h : Ascending entries) : (entries.map Prod.fst).Nodup := by
  apply List.pairwise_map.mpr
  apply h.imp
  intro a b hless hsame
  rw [hsame] at hless
  exact String.lt_irrefl b.1 hless

theorem cons
    {first : String × Value} (hless : name < first.1) (h : Ascending (first :: entries)) :
    Ascending ((name, value) :: first :: entries) := by
  refine List.pairwise_cons.mpr ⟨?_, h⟩
  intro entry hentry
  rcases List.mem_cons.mp hentry with rfl | hrest
  · exact hless
  · exact String.lt_trans hless ((List.pairwise_cons.mp h).1 entry hrest)

/-- The first name is not found again. -/
theorem lookup_eq_none (h : Ascending ((name, value) :: entries)) : entries.lookup name = none := by
  have hnew := (List.nodup_cons.mp h.nodup).1
  rw [← lookup_isSome_iff] at hnew
  exact Option.not_isSome_iff_eq_none.mp hnew

theorem ext (h : Ascending entries) (hothers : Ascending others)
    (hlookup : ∀ name, entries.lookup name = others.lookup name) : entries = others := by
  have hmem : ∀ entry : String × Value, entry ∈ entries ↔ entry ∈ others := by
    rintro ⟨name, value⟩
    rw [← lookup_eq_some_iff h.nodup, hlookup, lookup_eq_some_iff hothers.nodup]
  have hperm : entries.Perm others :=
    (List.perm_ext_iff_of_nodup h.nodup.of_map hothers.nodup.of_map).mpr hmem
  refine List.Perm.eq_of_pairwise ?_ h hothers hperm
  intro a b _ _ hless hgreater
  exact absurd (String.lt_trans hless hgreater) (String.lt_irrefl a.1)

end Ascending

end ContrastLint.Entries
