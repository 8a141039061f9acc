import ContrastLint.Proofs.Beginnings
import ContrastLint.Proofs.Complaints

/-!
# Regions of locations

A location in the log in the interchange format has a region, with lines and
columns that count from one.  The positions of errors and the lines of results
do, because counting finds them.

A stylesheet of white space alone is refused without a position.  Its location
has a region as well, and that region is null.
-/

namespace ContrastLint

/-! ## Positions -/

/-- The line and the column count from one. -/
structure Position.IsProper (p : Position) : Prop where
  line : 1 ≤ p.line
  column : 1 ≤ p.column

theorem Position.isProper_locate {text : List Char} {offset : Nat} (h : Text.Boundary text offset) :
    (Position.locate text offset).IsProper := by
  rcases h with ⟨before, hbefore, rfl⟩
  rw [locate_eq hbefore]
  exact ⟨Nat.le_add_right 1 _, Nat.le_add_right 1 _⟩

theorem Document.isProper_of_parse
    {css : String} {doc : Document Position} (h : parse css = .ok doc) :
    ∀ p ∈ doc.places, p.IsProper := by
  obtain ⟨read, hread, rfl⟩ := parse_eq_ok_iff.mp h
  have hboundary := boundary_of_read hread
  rw [locate_eq_map hboundary, places_map, List.forall_mem_map]
  exact fun place hplace => Position.isProper_locate (hboundary place hplace)

theorem ParseError.isProper_of_parse {css : String} {e : ParseError} (h : parse css = .error e) :
    e.position.IsProper := by
  unfold parse at h
  cases hread : Document.read css.toList with
  | ok doc => simp [hread] at h
  | error fault =>
      obtain rfl : fault.locate css.toList = e := by simpa [hread] using h
      exact Position.isProper_locate (Document.boundary_of_read_eq_error hread)

theorem Document.one_le_line_of_result
    {css : String} {doc : Document Position} {config : LintConfig} {result : ContrastResult}
    (h : parse css = .ok doc) (hresult : result ∈ (doc.lint config).value.results) :
    1 ≤ result.line := by
  obtain ⟨r, hr, -, hline⟩ := exists_rule_of_result hresult
  have hplace : r.place ∈ doc.places :=
    List.mem_flatMap.mpr ⟨.rule r, mem_rules_iff.mp hr, List.mem_cons_self⟩
  rw [hline]
  exact (isProper_of_parse h r.place hplace).line

/-! ## Sources -/

/-- A text with the path that it was found at and the configuration that it is linted
with. -/
structure Source where
  config : LintConfig
  path : String
  css : String

namespace Source

def report (source : Source) : FileReport :=
  (lintSource source.config source.path source.css).value

def IsBlank (source : Source) : Prop :=
  Text.trim source.css.toList = []

variable {source : Source}

theorem report_eq (source : Source) :
    source.report = ⟨source.path, (lint source.config source.css).value⟩ :=
  value_lintSource _ _ _

theorem complaints_of_isBlank (h : source.IsBlank) :
    source.report.complaints = [.unreadable source.path .emptyInput] := by
  rw [report_eq, value_lint_of_white source.config h]
  rfl

end Source

/-! ## Locations -/

/-- An integer from one on. -/
def Json.CountsFromOne (value : Json) : Prop :=
  ∃ n : Int, value = .integer n ∧ 1 ≤ n

theorem Json.countsFromOne_natural {n : Nat} (h : 1 ≤ n) : (Json.natural n).CountsFromOne :=
  ⟨n, rfl, by omega⟩

namespace Sarif

/-- A region has a line to start at, and it may have a column. -/
def IsRegion (value : Json) : Prop :=
  ∃ fields, value = .object fields ∧
    (∃ line, Json.field? fields "startLine" = some line ∧ line.CountsFromOne) ∧
    ∀ column, Json.field? fields "startColumn" = some column → column.CountsFromOne

/-- A location is in a file, and its region is one if it has a region. -/
def WellFormed (location : Json) : Prop :=
  ∃ fields, location.member? "physicalLocation" = some (.object fields) ∧
    ∀ value, Json.field? fields "region" = some value → IsRegion value

/-- The locations of all results of a run, in their order. -/
def locations (log : Json) : List Json :=
  (results log).flatMap locationsOf

/-- The region that a complaint is located with. -/
inductive Placed (location : Json) : Complaint → Prop
  | blank {path : String}
      (null : location.at? ["physicalLocation", "region"] = some .null) :
      Placed location (.unreadable path .emptyInput)
  | unreadable {path : String} {e : ParseError}
      (region : location.at? ["physicalLocation", "region"] =
        some (Region.toJson ⟨e.position.line, some e.position.column⟩))
      (proper : IsRegion (Region.toJson ⟨e.position.line, some e.position.column⟩)) :
      Placed location (.unreadable path (.unreadable e))
  | failure {path : String} {report : LintReport} {result : ContrastResult}
      (region : location.at? ["physicalLocation", "region"] =
        some (Region.toJson ⟨result.line, none⟩))
      (proper : IsRegion (Region.toJson ⟨result.line, none⟩)) :
      Placed location (.failure path report result)

theorem Region.isRegion_toJson
    {region : Region} (hline : 1 ≤ region.startLine)
    (hcolumn : ∀ column, region.startColumn = some column → 1 ≤ column) :
    IsRegion region.toJson := by
  refine ⟨_, rfl, ⟨_, rfl, Json.countsFromOne_natural hline⟩, ?_⟩
  cases hstart : region.startColumn with
  | none => simp [Json.field?, List.lookup_cons]
  | some column =>
      have hcounts := Json.countsFromOne_natural (hcolumn column hstart)
      simpa [Json.field?, List.lookup_cons] using hcounts

theorem not_isRegion_null : ¬IsRegion .null := by
  rintro ⟨fields, hnull, -⟩
  contradiction

theorem IsRegion.ne_null {value : Json} (h : IsRegion value) : value ≠ .null := by
  rintro rfl
  exact not_isRegion_null h

theorem wellFormed_iff_isRegion
    {location value : Json} (h : location.at? ["physicalLocation", "region"] = some value) :
    WellFormed location ↔ IsRegion value := by
  obtain ⟨place, hplace, hregion⟩ := Option.bind_eq_some_iff.mp h
  cases place with
  | object fields =>
      have hfield : Json.field? fields "region" = some value := by
        simpa [Json.at?, Json.member?] using hregion
      simp [WellFormed, hplace, hfield]
  | _ => simp [Json.at?, Json.member?] at hregion

theorem locations_log (files : List FileReport) :
    locations (log files) = (complaints files).map fun c => (Entry.ofComplaint c).location := by
  rw [List.map_eq_flatMap]
  simp only [locations, results_log, entries_eq, List.flatMap_map, locationsOf_toJson]

variable {source : Source} {complaint : Complaint}

/-- Of the complaints about a source only that it is blank has no proper region. -/
theorem region_of_mem (h : complaint ∈ source.report.complaints) :
    source.IsBlank ∧ complaint = .unreadable source.path .emptyInput ∨
      ¬source.IsBlank ∧ ∃ region, (Entry.ofComplaint complaint).region = some region ∧
        IsRegion region.toJson := by
  by_cases hblank : source.IsBlank
  · rw [Source.complaints_of_isBlank hblank] at h
    exact .inl ⟨hblank, List.mem_singleton.mp h⟩
  · refine .inr ⟨hblank, ?_⟩
    rw [Source.report_eq] at h
    cases hparse : parse source.css with
    | error e =>
        rw [value_lint_of_error source.config hblank hparse] at h
        obtain rfl := List.mem_singleton.mp h
        have hproper := ParseError.isProper_of_parse hparse
        exact ⟨_, rfl, Region.isRegion_toJson hproper.line (by simpa using hproper.column)⟩
    | ok doc =>
        rw [value_lint_of_parse source.config hblank hparse] at h
        obtain ⟨r, hr, rfl⟩ := List.mem_map.mp h
        have hline := Document.one_le_line_of_result hparse (List.mem_of_mem_filter hr)
        exact ⟨_, rfl, Region.isRegion_toJson hline (by simp)⟩

theorem placed_of_mem (h : complaint ∈ source.report.complaints) :
    Placed (Entry.ofComplaint complaint).location complaint := by
  have hlocation := region_location (.ofComplaint complaint)
  rcases region_of_mem h with ⟨-, rfl⟩ | ⟨-, region, hregion, hproper⟩
  · exact .blank hlocation
  · rw [hregion] at hlocation
    rcases complaint with ⟨path, _ | e⟩ | ⟨path, report, r⟩
    · contradiction
    · cases hregion
      exact .unreadable hlocation hproper
    · cases hregion
      exact .failure hlocation hproper

theorem wellFormed_location_iff (h : complaint ∈ source.report.complaints) :
    WellFormed (Entry.ofComplaint complaint).location ↔ ¬source.IsBlank := by
  rw [wellFormed_iff_isRegion (region_location _)]
  rcases region_of_mem h with ⟨hblank, rfl⟩ | ⟨hfull, region, hregion, hproper⟩
  · exact iff_of_false not_isRegion_null (not_not_intro hblank)
  · rw [hregion]
    exact iff_of_true hproper hfull

theorem mem_locations_iff {sources : List Source} {location : Json} :
    location ∈ locations (log (sources.map Source.report)) ↔
      ∃ source ∈ sources, ∃ complaint ∈ source.report.complaints,
        (Entry.ofComplaint complaint).location = location := by
  simp only [locations_log, complaints, List.mem_map, List.mem_flatMap, exists_exists_and_eq_and]
  constructor
  · rintro ⟨complaint, ⟨source, hsource, hmem⟩, heq⟩
    exact ⟨source, hsource, complaint, hmem, heq⟩
  · rintro ⟨source, hsource, complaint, hmem, heq⟩
    exact ⟨complaint, ⟨source, hsource, hmem⟩, heq⟩

theorem Placed.malformed_iff {location : Json} (h : Placed location complaint) :
    ¬WellFormed location ↔ location.at? ["physicalLocation", "region"] = some .null := by
  cases h with
  | blank null => simp [wellFormed_iff_isRegion null, not_isRegion_null, null]
  | unreadable region proper => simp [wellFormed_iff_isRegion region, proper, region, proper.ne_null]
  | failure region proper => simp [wellFormed_iff_isRegion region, proper, region, proper.ne_null]

/-- The regions in the log on some sources. -/
structure Regions (sources : List Source) : Prop where
  written : sarifReport (sources.map Source.report) = Json.wide (log (sources.map Source.report))
  placed : List.Forall₂ Placed (locations (log (sources.map Source.report)))
    (complaints (sources.map Source.report))
  wellFormed : (∀ location ∈ locations (log (sources.map Source.report)), WellFormed location) ↔
    ∀ source ∈ sources, ¬source.IsBlank
  malformed : ∀ location ∈ locations (log (sources.map Source.report)),
    ¬WellFormed location ↔ location.at? ["physicalLocation", "region"] = some .null

/-- All locations in the log on some sources are well formed if and only if no source is
blank.  The region in the location of a blank source is null, and the one in any other
location has a line, and a column if it has one, that count from one. -/
theorem regions (sources : List Source) : Regions sources := by
  constructor
  case written => rfl
  case placed =>
    rw [locations_log, List.forall₂_map_left_iff, List.forall₂_same]
    intro complaint hmem
    obtain ⟨file, hfile, hcomplaint⟩ := List.mem_flatMap.mp hmem
    obtain ⟨source, -, rfl⟩ := List.mem_map.mp hfile
    exact placed_of_mem hcomplaint
  case wellFormed =>
    simp only [mem_locations_iff]
    constructor
    · intro h source hsource hblank
      have hmem : .unreadable source.path .emptyInput ∈ source.report.complaints := by
        rw [Source.complaints_of_isBlank hblank]
        exact List.mem_singleton_self _
      exact (wellFormed_location_iff hmem).mp (h _ ⟨source, hsource, _, hmem, rfl⟩) hblank
    · rintro h location ⟨source, hsource, complaint, hmem, rfl⟩
      exact (wellFormed_location_iff hmem).mpr (h source hsource)
  case malformed =>
    intro location hlocation
    obtain ⟨source, -, complaint, hmem, rfl⟩ := mem_locations_iff.mp hlocation
    exact (placed_of_mem hmem).malformed_iff

/-- A stylesheet with nothing but a blank has a location that is not well formed. -/
theorem exists_null_region :
    ∃ location, locations (log [Source.report ⟨{}, "a.css", " "⟩]) = [location] ∧
      location.at? ["physicalLocation", "region"] = some .null ∧ ¬WellFormed location := by
  have hblank : Source.IsBlank ⟨{}, "a.css", " "⟩ := by
    unfold Source.IsBlank
    decide
  have hcomplaints := Source.complaints_of_isBlank hblank
  refine ⟨(Entry.ofComplaint (.unreadable "a.css" .emptyInput)).location, ?_, ?_, ?_⟩
  · rw [locations_log, complaints, List.flatMap_singleton, hcomplaints]
    rfl
  · exact region_location _
  · rw [wellFormed_iff_isRegion (region_location _)]
    exact not_isRegion_null

end Sarif

end ContrastLint
