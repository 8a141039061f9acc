import ContrastLint.Proofs.Entries
import ContrastLint.Proofs.Places
import ContrastLint.Stylesheet.Render

/-!
# Documents from JSON data

The form of a document as JSON data is read as this document.  The order of the
fields of an object is not read, nor is any field beside those of the form, and a
block that is null may be left out.  Data that differ from the form in another
way are not read at all: a field is missing or repeated, a scalar has another kind
or leaves its range, or the tag of a node names no kind of node.
-/

namespace ContrastLint

namespace Json

/-! ## Forms with and without a fault -/

def nodeKinds : List String :=
  ["rule", "declaration", "atrule"]

/-- Data that have what a form has.  An object has its fields in any order and none of
them twice, any fields that the form does not have, and may lack a block that is
null. -/
inductive Loosened : Json → Json → Prop
  | refl (j : Json) : Loosened j j
  | array {items items' : List Json} (hitems : List.Forall₂ Loosened items items') :
      Loosened (.array items) (.array items')
  | object {fields fields' : List (String × Json)}
      (honce : ∀ name value, (name, value) ∈ fields → occurrences fields' name ≤ 1)
      (hheld : ∀ name value value', (name, value) ∈ fields →
        fields'.lookup name = some value' → Loosened value value')
      (hmissing : ∀ name value, (name, value) ∈ fields →
        fields'.lookup name = none → name = "block" ∧ value = .null) :
      Loosened (.object fields) (.object fields')

/-- The tag of a form is still the tag of an object. -/
def SameTag (fields fields' : List (String × Json)) : Prop :=
  ∀ tag, ("type", tag) ∈ fields → fields'.lookup "type" = some tag

/-- Data that differ from a form at some place: a scalar of another kind, an integer
that is no machine word, an unknown tag, a field that is missing or repeated, or a
block that is neither null nor a string.  What stands at other places is arbitrary,
but no object on the way to this place has the tag of another kind of node. -/
inductive Spoiled : Json → Json → Prop
  | string {text : String} {j : Json} (h : ∀ other, j ≠ .string other) :
      Spoiled (.string text) j
  | bool {value : Bool} {j : Json} (h : ∀ other, j ≠ .bool other) : Spoiled (.bool value) j
  | integer {n : Int} {j : Json} (h : ∀ m, m < wordBound → j ≠ .natural m) :
      Spoiled (.integer n) j
  | item {items items' : List Json} {item item' : Json} {i : Nat}
      (hitem : items[i]? = some item) (hitem' : items'[i]? = some item')
      (h : Spoiled item item') : Spoiled (.array items) (.array items')
  | tag {fields fields' : List (String × Json)} {value : Json}
      (hfield : ("type", value) ∈ fields)
      (h : ∀ kind ∈ nodeKinds, fields'.lookup "type" ≠ some (.string kind)) :
      Spoiled (.object fields) (.object fields')
  | repeated {fields fields' : List (String × Json)} {name : String} {value : Json}
      (hsame : name = "type" ∨ SameTag fields fields') (hfield : (name, value) ∈ fields)
      (h : 1 < occurrences fields' name) : Spoiled (.object fields) (.object fields')
  | missing {fields fields' : List (String × Json)} {name : String} {value : Json}
      (hsame : SameTag fields fields') (hfield : (name, value) ∈ fields)
      (hname : name ≠ "block") (h : fields'.lookup name = none) :
      Spoiled (.object fields) (.object fields')
  | field {fields fields' : List (String × Json)} {name : String} {value value' : Json}
      (hsame : SameTag fields fields') (hfield : (name, value) ∈ fields)
      (hname : name ≠ "block") (hheld : fields'.lookup name = some value')
      (h : Spoiled value value') : Spoiled (.object fields) (.object fields')
  | block {fields fields' : List (String × Json)} {value value' : Json}
      (hsame : SameTag fields fields') (hfield : ("block", value) ∈ fields)
      (hheld : fields'.lookup "block" = some value') (hnull : value' ≠ .null)
      (hstring : ∀ text, value' ≠ .string text) : Spoiled (.object fields) (.object fields')

/-! ## Fields of an object -/

/-- What an object has under a name, which may be repeated, against the field of a
form. -/
def LoosenedField (name : String) (value : Json) : Option (Option Json) → Prop
  | none => False
  | some none => name = "block" ∧ value = .null
  | some (some value') => Loosened value value'

def SpoiledField (name : String) (value : Json) : Option (Option Json) → Prop
  | none => True
  | some none => name ≠ "block"
  | some (some value') =>
    if name = "block" then value' ≠ .null ∧ ∀ text, value' ≠ .string text
    else Spoiled value value'

def LoosenedFields (fields fields' : List (String × Json)) : Prop :=
  ∀ field ∈ fields, LoosenedField field.1 field.2 (fieldOnce? fields' field.1)

def SpoiledFields (fields fields' : List (String × Json)) : Prop :=
  ∃ field ∈ fields, SpoiledField field.1 field.2 (fieldOnce? fields' field.1)

/-- An object names no kind of node, or more than one. -/
def Untagged (fields' : List (String × Json)) : Prop :=
  ∀ kind ∈ nodeKinds, fieldOnce? fields' "type" ≠ some (some (.string kind))

section Fields

variable {name : String} {value j : Json} {fields fields' : List (String × Json)}

@[simp] theorem loosenedFields_cons {field : String × Json} :
    LoosenedFields (field :: fields) fields' ↔
      LoosenedField field.1 field.2 (fieldOnce? fields' field.1) ∧
        LoosenedFields fields fields' := by
  simp [LoosenedFields]

@[simp] theorem spoiledFields_nil : ¬ SpoiledFields [] fields' := by
  simp [SpoiledFields]

@[simp] theorem spoiledFields_cons {field : String × Json} :
    SpoiledFields (field :: fields) fields' ↔
      SpoiledField field.1 field.2 (fieldOnce? fields' field.1) ∨
        SpoiledFields fields fields' := by
  simp [SpoiledFields]

theorem fieldOnce?_of_le (h : occurrences fields' name ≤ 1) :
    fieldOnce? fields' name = some (fields'.lookup name) :=
  if_pos h

theorem fieldOnce?_of_lt (h : 1 < occurrences fields' name) : fieldOnce? fields' name = none :=
  if_neg (by omega)

theorem occurrences_of_nodup (hdistinct : (fields.map Prod.fst).Nodup) (name : String) :
    occurrences fields name ≤ 1 :=
  List.nodup_iff_count_le_one.mp hdistinct name

theorem LoosenedField.occurrences_le (h : LoosenedField name value (fieldOnce? fields' name)) :
    occurrences fields' name ≤ 1 := by
  by_contra hrepeated
  rw [fieldOnce?_of_lt (by omega)] at h
  exact h

theorem SpoiledField.of_lookup (h : SpoiledField name value (some (fields'.lookup name))) :
    SpoiledField name value (fieldOnce? fields' name) := by
  by_cases honce : occurrences fields' name ≤ 1
  · rwa [fieldOnce?_of_le honce]
  · rw [fieldOnce?_of_lt (by omega)]
    trivial

theorem loosened_object_iff (hdistinct : (fields.map Prod.fst).Nodup) :
    Loosened (.object fields) j ↔
      ∃ fields', j = .object fields' ∧ LoosenedFields fields fields' := by
  constructor
  · intro h
    cases h with
    | refl =>
        refine ⟨fields, rfl, fun field hfield => ?_⟩
        rw [fieldOnce?_of_le (occurrences_of_nodup hdistinct field.1),
          (Entries.lookup_eq_some_iff hdistinct).mpr hfield]
        exact .refl field.2
    | @object _ fields' honce hheld hmissing =>
        refine ⟨fields', rfl, fun field hfield => ?_⟩
        rw [fieldOnce?_of_le (honce field.1 field.2 hfield)]
        cases hfound : fields'.lookup field.1 with
        | none => exact hmissing field.1 field.2 hfield hfound
        | some value' => exact hheld field.1 field.2 value' hfield hfound
  · rintro ⟨fields', rfl, h⟩
    have honce : ∀ name value, (name, value) ∈ fields → occurrences fields' name ≤ 1 :=
      fun name value hfield => (h (name, value) hfield).occurrences_le
    refine .object honce (fun name value value' hfield hfound => ?_)
      (fun name value hfield hfound => ?_)
    · simpa [fieldOnce?_of_le (honce name value hfield), hfound, LoosenedField]
        using h (name, value) hfield
    · simpa [fieldOnce?_of_le (honce name value hfield), hfound, LoosenedField]
        using h (name, value) hfield

/-- An object with a fault has none of the tags of its form, or it has the same tag
and one of its fields has a fault. -/
theorem exists_spoiledFields (h : Spoiled (.object fields) j) :
    ∃ fields', j = .object fields' ∧
      ((∃ value, ("type", value) ∈ fields ∧ Untagged fields') ∨
        SameTag fields fields' ∧ SpoiledFields fields fields') := by
  cases h with
  | @tag _ fields' value hfield h =>
      refine ⟨fields', rfl, .inl ⟨value, hfield, fun kind hkind hfound => h kind hkind ?_⟩⟩
      by_cases honce : occurrences fields' "type" ≤ 1
      · exact Option.some.inj ((fieldOnce?_of_le honce).symm.trans hfound)
      · rw [fieldOnce?_of_lt (by omega)] at hfound
        contradiction
  | @repeated _ fields' name value hsame hfield h =>
      rcases hsame with rfl | hsame
      · exact ⟨fields', rfl, .inl ⟨value, hfield, by simp [Untagged, fieldOnce?_of_lt h]⟩⟩
      · refine ⟨fields', rfl, .inr ⟨hsame, (name, value), hfield, ?_⟩⟩
        rw [fieldOnce?_of_lt h]
        trivial
  | @missing _ fields' name value hsame hfield hname h =>
      refine ⟨fields', rfl, .inr ⟨hsame, (name, value), hfield, .of_lookup ?_⟩⟩
      rw [h]
      exact hname
  | @field _ fields' name value value' hsame hfield hname hheld h =>
      refine ⟨fields', rfl, .inr ⟨hsame, (name, value), hfield, .of_lookup ?_⟩⟩
      rw [hheld, SpoiledField, if_neg hname]
      exact h
  | @block _ fields' value value' hsame hfield hheld hnull hstring =>
      refine ⟨fields', rfl, .inr ⟨hsame, ("block", value), hfield, .of_lookup ?_⟩⟩
      rw [hheld, SpoiledField, if_pos rfl]
      exact ⟨hnull, hstring⟩

end Fields

/-! ## Readers of forms -/

/-- A reader takes a form for a value, however it is loosened, and refuses it with
any fault. -/
structure Form {α : Type} (read? : Json → Option α) (form : Json) (a : α) : Prop where
  loosened : ∀ {j}, form.Loosened j → read? j = some a
  spoiled : ∀ {j}, form.Spoiled j → read? j = none

/-- The same of a reader of the fields of an object. -/
structure FieldsForm {α : Type} (read? : Json → Option α) (fields : List (String × Json))
    (a : α) : Prop where
  loosened : ∀ {fields'}, LoosenedFields fields fields' → read? (.object fields') = some a
  spoiled : ∀ {fields'}, SpoiledFields fields fields' → read? (.object fields') = none

section Readers

variable {α : Type} {read? : Json → Option α} {a : α} {name : String} {value : Json}
  {found : Option (Option Json)} {fields fields' : List (String × Json)}

theorem form_string (text : String) : Form string? (.string text) text where
  loosened h := by
    cases h
    rfl
  spoiled := by
    rintro j ⟨h⟩
    cases j with
    | string other => exact (h other rfl).elim
    | _ => rfl

theorem form_bool (value : Bool) : Form bool? (.bool value) value where
  loosened h := by
    cases h
    rfl
  spoiled := by
    rintro j (_ | ⟨h⟩)
    cases j with
    | bool other => exact (h other rfl).elim
    | _ => rfl

theorem form_word {n : Nat} (hn : n < wordBound) : Form word? (.natural n) n where
  loosened h := by
    cases h
    simp [natural, word?, below?, hn]
  spoiled := by
    rintro j (_ | _ | ⟨h⟩)
    cases j with
    | integer m =>
        rw [word?, below?, if_neg]
        rintro ⟨hpositive, hbound⟩
        refine h m.toNat (by omega) ?_
        rw [natural, Int.toNat_of_nonneg hpositive]
    | _ => rfl

theorem form_list
    {β : Type} {toJson : β → Json} {item? : Json → Option β} {items : List β}
    (h : ∀ item ∈ items, Form item? (toJson item) item) :
    Form (listOf? item?) (.array (items.map toJson)) items where
  loosened := by
    -- A list is loosened as a whole or item by item, so the induction is on the items.
    have hread : ∀ {items' : List Json}, List.Forall₂ Loosened (items.map toJson) items' →
        items'.mapM item? = some items := by
      induction items with
      | nil =>
          rintro _ ⟨⟩
          rfl
      | cons item items ih =>
          rintro _ (_ | ⟨hitem, hitems⟩)
          obtain ⟨hfirst, hrest⟩ := List.forall_mem_cons.mp h
          rw [List.mapM_cons, hfirst.loosened hitem, ih hrest hitems]
          rfl
    intro j hloosened
    cases hloosened with
    | refl => exact hread (List.forall₂_same.mpr fun item _ => .refl item)
    | array hitems => exact hread hitems
  spoiled := by
    intro j hspoiled
    cases hspoiled with
    | @item _ items' form item' i hform hitem hspoiled =>
        obtain ⟨original, horiginal, rfl⟩ := List.mem_map.mp (List.mem_of_getElem? hform)
        apply mapM_eq_none_of_mem (List.mem_of_getElem? hitem)
        exact (h original horiginal).spoiled hspoiled

theorem Form.field_loosened (h : Form read? value a) (hfound : LoosenedField name value found)
    (hname : name ≠ "block" := by decide) : found.join.bind read? = some a := by
  match found with
  | none => exact hfound.elim
  | some none => exact (hname hfound.1).elim
  | some (some value') => exact h.loosened hfound

theorem Form.field_spoiled (h : Form read? value a) (hfound : SpoiledField name value found)
    (hname : name ≠ "block" := by decide) : found.join.bind read? = none := by
  match found with
  | none | some none => rfl
  | some (some value') =>
      rw [SpoiledField, if_neg hname] at hfound
      exact h.spoiled hfound

theorem optional?_loosened {block : Option String}
    (hfound : LoosenedField "block" (.ofString? block) found) :
    found.bind (optional? string?) = some block := by
  match block, found with
  | _, none => exact hfound.elim
  | none, some none => rfl
  | none, some (some value') =>
      cases hfound
      rfl
  | some text, some none => exact absurd hfound.2 (by simp [ofString?])
  | some text, some (some value') =>
      cases hfound
      rfl

theorem optional?_spoiled (hfound : SpoiledField "block" value found) :
    found.bind (optional? string?) = none := by
  match found with
  | none => rfl
  | some none => exact (hfound rfl).elim
  | some (some value') =>
      rw [SpoiledField, if_pos rfl] at hfound
      cases value' with
      | null => exact (hfound.1 rfl).elim
      | string text => exact (hfound.2 text rfl).elim
      | _ => rfl

/-- An object without a tag is read by its fields. -/
theorem FieldsForm.form (h : FieldsForm read? fields a)
    (hdistinct : (fields.map Prod.fst).Nodup) (htag : "type" ∉ fields.map Prod.fst) :
    Form read? (.object fields) a where
  loosened hloosened := by
    obtain ⟨fields', rfl, hfields⟩ := (loosened_object_iff hdistinct).mp hloosened
    exact h.loosened hfields
  spoiled hspoiled := by
    obtain ⟨fields', rfl, ⟨value, hfield, -⟩ | ⟨-, hfields⟩⟩ := exists_spoiledFields hspoiled
    · exact (htag (List.mem_map.mpr ⟨_, hfield, rfl⟩)).elim
    · exact h.spoiled hfields

end Readers

end Json

open Json

/-! ## The parts of a document -/

/-- A position in machine words. -/
structure Position.Fits (p : Position) : Prop where
  offset : p.offset < wordBound
  line : p.line < wordBound
  column : p.column < wordBound

theorem Position.ofJson?_object (fields : List (String × Json)) :
    ofJson? (.object fields) =
      ((fieldOnce? fields "offset").join.bind word?).bind fun offset =>
        ((fieldOnce? fields "line").join.bind word?).bind fun line =>
          ((fieldOnce? fields "column").join.bind word?).bind fun column =>
            some ⟨offset, line, column⟩ := by
  simp only [ofJson?, record?, List.mapM_cons, List.mapM_nil]
  cases fieldOnce? fields "offset" <;>
    cases fieldOnce? fields "line" <;>
    cases fieldOnce? fields "column" <;>
    simp [Option.bind_assoc]

theorem Position.form {p : Position} (h : p.Fits) : Form ofJson? p.toJson p := by
  apply FieldsForm.form
  case hdistinct => simp
  case htag => simp
  case h =>
    constructor
    case loosened =>
      intro fields hfields
      simp only [loosenedFields_cons] at hfields
      obtain ⟨hoffset, hline, hcolumn, -⟩ := hfields
      rw [ofJson?_object, (form_word h.offset).field_loosened hoffset,
        (form_word h.line).field_loosened hline,
        (form_word h.column).field_loosened hcolumn]
      rfl
    case spoiled =>
      intro fields hfields
      simp only [spoiledFields_cons, spoiledFields_nil, or_false] at hfields
      rw [ofJson?_object]
      rcases hfields with hoffset | hline | hcolumn
      · simp [(form_word h.offset).field_spoiled hoffset]
      · simp [(form_word h.line).field_spoiled hline]
      · simp [(form_word h.column).field_spoiled hcolumn]

namespace Declaration

theorem ofJson?_object (fields : List (String × Json)) :
    ofJson? (.object fields) =
      ((fieldOnce? fields "property").join.bind string?).bind fun property =>
        ((fieldOnce? fields "value").join.bind string?).bind fun value =>
          ((fieldOnce? fields "important").join.bind bool?).bind fun important =>
            ((fieldOnce? fields "position").join.bind Position.ofJson?).bind fun place =>
              some { property, value, important, place } := by
  simp only [ofJson?, record?, List.mapM_cons, List.mapM_nil]
  cases fieldOnce? fields "property" <;>
    cases fieldOnce? fields "value" <;>
    cases fieldOnce? fields "important" <;>
    cases fieldOnce? fields "position" <;>
    simp [Option.bind_assoc]

theorem fieldsForm {d : Declaration Position} (h : d.place.Fits) :
    FieldsForm ofJson? d.jsonFields d where
  loosened hfields := by
    simp only [jsonFields, loosenedFields_cons] at hfields
    obtain ⟨hproperty, hvalue, himportant, hposition, -⟩ := hfields
    rw [ofJson?_object, (form_string d.property).field_loosened hproperty,
      (form_string d.value).field_loosened hvalue,
      (form_bool d.important).field_loosened himportant,
      (Position.form h).field_loosened hposition]
    rfl
  spoiled hfields := by
    simp only [jsonFields, spoiledFields_cons, spoiledFields_nil, or_false] at hfields
    rw [ofJson?_object]
    rcases hfields with hproperty | hvalue | himportant | hposition
    · simp [(form_string d.property).field_spoiled hproperty]
    · simp [(form_string d.value).field_spoiled hvalue]
    · simp [(form_bool d.important).field_spoiled himportant]
    · simp [(Position.form h).field_spoiled hposition]

theorem form {d : Declaration Position} (h : d.place.Fits) : Form ofJson? d.toJson d :=
  (fieldsForm h).form (by simp [jsonFields]) (by simp [jsonFields])

end Declaration

namespace Rule

theorem ofJson?_object (fields : List (String × Json)) :
    ofJson? (.object fields) =
      ((fieldOnce? fields "selector").join.bind string?).bind fun selector =>
        ((fieldOnce? fields "declarations").join.bind (listOf? Declaration.ofJson?)).bind
          fun declarations =>
            ((fieldOnce? fields "position").join.bind Position.ofJson?).bind fun place =>
              some { selector, declarations, place } := by
  simp only [ofJson?, record?, List.mapM_cons, List.mapM_nil]
  cases fieldOnce? fields "selector" <;>
    cases fieldOnce? fields "declarations" <;>
    cases fieldOnce? fields "position" <;>
    simp [Option.bind_assoc]

theorem fieldsForm {r : Rule Position} (hplace : r.place.Fits)
    (hdeclarations : ∀ d ∈ r.declarations, d.place.Fits) :
    FieldsForm ofJson? r.jsonFields r where
  loosened hfields := by
    simp only [jsonFields, loosenedFields_cons] at hfields
    obtain ⟨hselector, hlist, hposition, -⟩ := hfields
    have hform := form_list fun d hd => Declaration.form (hdeclarations d hd)
    rw [ofJson?_object, (form_string r.selector).field_loosened hselector,
      hform.field_loosened hlist,
      (Position.form hplace).field_loosened hposition]
    rfl
  spoiled hfields := by
    simp only [jsonFields, spoiledFields_cons, spoiledFields_nil, or_false] at hfields
    have hform := form_list fun d hd => Declaration.form (hdeclarations d hd)
    rw [ofJson?_object]
    rcases hfields with hselector | hlist | hposition
    · simp [(form_string r.selector).field_spoiled hselector]
    · simp [hform.field_spoiled hlist]
    · simp [(Position.form hplace).field_spoiled hposition]

end Rule

namespace AtRule

theorem ofJson?_object (fields : List (String × Json)) :
    ofJson? (.object fields) =
      ((fieldOnce? fields "name").join.bind string?).bind fun name =>
        ((fieldOnce? fields "params").join.bind string?).bind fun params =>
          ((fieldOnce? fields "block").bind (optional? string?)).bind fun block =>
            ((fieldOnce? fields "position").join.bind Position.ofJson?).bind fun place =>
              some { name, params, block, place } := by
  simp only [ofJson?, record?, List.mapM_cons, List.mapM_nil]
  cases fieldOnce? fields "name" <;>
    cases fieldOnce? fields "params" <;>
    cases fieldOnce? fields "block" <;>
    cases fieldOnce? fields "position" <;>
    simp [Option.bind_assoc]

theorem fieldsForm {a : AtRule Position} (h : a.place.Fits) :
    FieldsForm ofJson? a.jsonFields a where
  loosened hfields := by
    simp only [jsonFields, loosenedFields_cons] at hfields
    obtain ⟨hname, hparams, hblock, hposition, -⟩ := hfields
    rw [ofJson?_object, (form_string a.name).field_loosened hname,
      (form_string a.params).field_loosened hparams,
      optional?_loosened hblock,
      (Position.form h).field_loosened hposition]
    rfl
  spoiled hfields := by
    simp only [jsonFields, spoiledFields_cons, spoiledFields_nil, or_false] at hfields
    rw [ofJson?_object]
    rcases hfields with hname | hparams | hblock | hposition
    · simp [(form_string a.name).field_spoiled hname]
    · simp [(form_string a.params).field_spoiled hparams]
    · simp [optional?_spoiled hblock]
    · simp [(Position.form h).field_spoiled hposition]

end AtRule

namespace Node

variable {fields : List (String × Json)}

theorem ofJson?_rule (htag : fieldOnce? fields "type" = some (some (.string "rule"))) :
    ofJson? (.object fields) = (Rule.ofJson? (.object fields)).map .rule := by
  simp [ofJson?, variant?, htag, string?, Option.map_eq_bind]

theorem ofJson?_declaration
    (htag : fieldOnce? fields "type" = some (some (.string "declaration"))) :
    ofJson? (.object fields) = (Declaration.ofJson? (.object fields)).map .declaration := by
  simp [ofJson?, variant?, htag, string?, Option.map_eq_bind]

theorem ofJson?_atRule (htag : fieldOnce? fields "type" = some (some (.string "atrule"))) :
    ofJson? (.object fields) = (AtRule.ofJson? (.object fields)).map .atRule := by
  simp [ofJson?, variant?, htag, string?, Option.map_eq_bind]

theorem ofJson?_of_untagged (h : Untagged fields) : ofJson? (.object fields) = none := by
  match hfound : fieldOnce? fields "type" with
  | none | some none => simp [ofJson?, variant?, hfound]
  | some (some tag) =>
      cases tag with
      | string kind =>
          have hkind : kind ∉ nodeKinds := fun hmem => h kind hmem hfound
          simp only [nodeKinds, List.mem_cons, List.not_mem_nil, or_false, not_or] at hkind
          obtain ⟨hrule, hdeclaration, hatRule⟩ := hkind
          simp [ofJson?, variant?, hfound, string?, hrule, hdeclaration, hatRule]
      | _ => simp [ofJson?, variant?, hfound, string?]

/-- A tagged object is read by the fields beside the tag. -/
theorem form_of_fields
    {α : Type} {read? : Json → Option α} {a : α} {wrap : α → Node Position} {kind : String}
    (hread : ∀ {fields}, fieldOnce? fields "type" = some (some (.string kind)) →
      ofJson? (.object fields) = (read? (.object fields)).map wrap)
    (h : FieldsForm read? fields a) (hdistinct : (fields.map Prod.fst).Nodup)
    (htag : "type" ∉ fields.map Prod.fst) :
    Form ofJson? (.object (("type", .string kind) :: fields)) (wrap a) where
  loosened hloosened := by
    have hdistinct' : ((("type", Json.string kind) :: fields).map Prod.fst).Nodup :=
      List.nodup_cons.mpr ⟨htag, hdistinct⟩
    obtain ⟨fields', rfl, hfields⟩ := (loosened_object_iff hdistinct').mp hloosened
    obtain ⟨hkind, hrest⟩ := loosenedFields_cons.mp hfields
    have hsame : fieldOnce? fields' "type" = some (some (.string kind)) := by
      match hfound : fieldOnce? fields' "type" with
      | none => simp [hfound, LoosenedField] at hkind
      | some none => simp [hfound, LoosenedField] at hkind
      | some (some tag) =>
          rw [hfound] at hkind
          cases hkind
          rfl
    rw [hread hsame, h.loosened hrest]
    rfl
  spoiled hspoiled := by
    obtain ⟨fields', rfl, ⟨value, -, huntagged⟩ | ⟨hsame, hfields⟩⟩ :=
      exists_spoiledFields hspoiled
    · exact ofJson?_of_untagged huntagged
    · by_cases honce : occurrences fields' "type" ≤ 1
      · have hkind : fieldOnce? fields' "type" = some (some (.string kind)) := by
          rw [fieldOnce?_of_le honce, hsame (.string kind) List.mem_cons_self]
        rw [hread hkind]
        rcases spoiledFields_cons.mp hfields with htype | hrest
        · -- The object has the tag of its form, so this field has no fault.
          simp only [hkind] at htype
          obtain ⟨hother⟩ := htype
          exact (hother kind rfl).elim
        · rw [h.spoiled hrest]
          rfl
      · apply ofJson?_of_untagged
        simp [Untagged, fieldOnce?_of_lt (Nat.lt_of_not_le honce)]

theorem form {node : Node Position} (h : ∀ p ∈ node.places, p.Fits) :
    Form ofJson? node.toJson node := by
  cases node with
  | rule r =>
      obtain ⟨hplace, hdeclarations⟩ := List.forall_mem_cons.mp h
      have hfields := Rule.fieldsForm hplace fun d hd =>
        hdeclarations d.place (List.mem_map_of_mem hd)
      exact form_of_fields ofJson?_rule hfields (by simp [Rule.jsonFields])
        (by simp [Rule.jsonFields])
  | declaration d =>
      have hfields := Declaration.fieldsForm (h d.place (by simp [places]))
      exact form_of_fields ofJson?_declaration hfields (by simp [Declaration.jsonFields])
        (by simp [Declaration.jsonFields])
  | atRule a =>
      have hfields := AtRule.fieldsForm (h a.place (by simp [places]))
      exact form_of_fields ofJson?_atRule hfields (by simp [AtRule.jsonFields])
        (by simp [AtRule.jsonFields])

end Node

namespace Document

theorem ofJson?_object (fields : List (String × Json)) :
    ofJson? (.object fields) =
      ((fieldOnce? fields "nodes").join.bind (listOf? Node.ofJson?)).bind
        fun nodes => some ⟨nodes⟩ := by
  simp only [ofJson?, record?, List.mapM_cons, List.mapM_nil]
  cases fieldOnce? fields "nodes" <;>
    simp [Option.bind_assoc]

/-- A document whose positions are machine words is read from its form, also when
the form is loosened.  Data with a fault are not read at all. -/
theorem ofJson?_toJson {doc : Document Position} (h : ∀ p ∈ doc.places, p.Fits) :
    ofJson? doc.toJson = some doc ∧
      (∀ j, doc.toJson.Loosened j → ofJson? j = some doc) ∧
      ∀ j, doc.toJson.Spoiled j → ofJson? j = none := by
  have hnodes : Form (listOf? Node.ofJson?) (.array (doc.nodes.map (·.toJson))) doc.nodes :=
    form_list fun node hnode => Node.form fun p hp =>
      h p (List.mem_flatMap.mpr ⟨node, hnode, hp⟩)
  have hfields : FieldsForm ofJson? [("nodes", .array (doc.nodes.map (·.toJson)))] doc := by
    constructor
    case loosened =>
      intro fields hloosened
      obtain ⟨hlist, -⟩ := loosenedFields_cons.mp hloosened
      rw [ofJson?_object, hnodes.field_loosened hlist (by simp)]
      rfl
    case spoiled =>
      intro fields hspoiled
      simp only [spoiledFields_cons, spoiledFields_nil, or_false] at hspoiled
      rw [ofJson?_object, hnodes.field_spoiled hspoiled (by simp)]
      rfl
  have hform : Form ofJson? doc.toJson doc := hfields.form (by simp) (by simp)
  exact ⟨hform.loosened (.refl _), fun _ => hform.loosened, fun _ => hform.spoiled⟩

/-- The case of an at-rule without a block: its fields in another order, one of them
left out and another added, and then with a tag in capitals or a repeated field. -/
theorem ofJson?_toJson_atRule :
    let doc : Document Position := ⟨[.atRule ⟨"media", "print", none, ⟨0, 1, 1⟩⟩]⟩
    let node (tag : String) (more : List (String × Json)) : Json :=
      .object ([("params", .string "print"), ("note", .null),
        ("position", Position.toJson ⟨0, 1, 1⟩), ("name", .string "media"),
        ("type", .string tag)] ++ more)
    ofJson? (.object [("nodes", .array [node "atrule" []])]) = some doc ∧
      ofJson? (.object [("nodes", .array [node "AtRule" []])]) = none ∧
      ofJson? (.object [("nodes", .array [node "atrule" [("name", .string "media")]])]) = none := by
  intro doc node
  have hfits : ∀ p ∈ doc.places, p.Fits := by
    intro p hp
    obtain rfl : p = ⟨0, 1, 1⟩ := by simpa [doc, places, Node.places] using hp
    exact ⟨by decide, by decide, by decide⟩
  obtain ⟨-, hloosened, hspoiled⟩ := ofJson?_toJson hfits
  refine ⟨?loosened, ?tag, ?repeated⟩
  case loosened =>
    apply hloosened
    have hnode : (Node.atRule ⟨"media", "print", none, ⟨0, 1, 1⟩⟩).toJson.Loosened
        (node "atrule" []) := by
      refine (loosened_object_iff (by simp [AtRule.jsonFields])).mpr ⟨_, rfl, ?_⟩
      simp [AtRule.jsonFields, LoosenedFields, LoosenedField, fieldOnce?, occurrences, field?,
        List.lookup_cons, ofString?, Loosened.refl]
    refine (loosened_object_iff (by simp)).mpr ⟨_, rfl, ?_⟩
    rw [loosenedFields_cons]
    exact ⟨.array (.cons hnode .nil), by simp [LoosenedFields]⟩
  case tag =>
    apply hspoiled
    have hnode : (Node.atRule ⟨"media", "print", none, ⟨0, 1, 1⟩⟩).toJson.Spoiled
        (node "AtRule" []) :=
      .tag List.mem_cons_self (by simp [nodeKinds, List.lookup_cons])
    refine .field ?_ List.mem_cons_self (by decide) rfl (@Spoiled.item _ _ _ _ 0 rfl rfl hnode)
    simp [SameTag]
  case repeated =>
    apply hspoiled
    have hnode : (Node.atRule ⟨"media", "print", none, ⟨0, 1, 1⟩⟩).toJson.Spoiled
        (node "atrule" [("name", .string "media")]) := by
      refine .repeated (.inr ?_) (List.mem_cons_of_mem _ List.mem_cons_self) (by decide)
      simp [SameTag, AtRule.jsonFields, List.lookup_cons]
    refine .field ?_ List.mem_cons_self (by decide) rfl (@Spoiled.item _ _ _ _ 0 rfl rfl hnode)
    simp [SameTag]

/-- A block that is left out, or null, is read as no block, even if the form of the
document has one. -/
theorem ofJson?_of_missing_block :
    let doc (block : Option String) : Document Position :=
      ⟨[.atRule ⟨"media", "print", block, ⟨0, 1, 1⟩⟩]⟩
    let form (block : List (String × Json)) : Json := .object [("nodes", .array [.object
      ([("type", .string "atrule"), ("name", .string "media"), ("params", .string "print")] ++
        block ++ [("position", Position.toJson ⟨0, 1, 1⟩)])])]
    (doc (some "x")).toJson = form [("block", .string "x")] ∧
      ofJson? (form []) = some (doc none) ∧
      ofJson? (form [("block", .null)]) = some (doc none) := by
  intro doc form
  exact ⟨rfl, rfl, rfl⟩

end Document

end ContrastLint
