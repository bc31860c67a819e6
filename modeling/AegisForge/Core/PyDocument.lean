import AegisForge.Core.Checks
import AegisForge.Core.KeyOrder
import AegisForge.Core.PyValue

/-!
# Values that are documents

A serializer also takes tuples, and keys that are no texts, which come back as other
values.  A value without them is a document, whose dictionaries keep their keys in the
order in which they were added.
-/

namespace AegisForge.Core

namespace PyKey

/-- `isinstance(key, str)`, with the text. -/
def name? : PyKey → Option String
  | text value => some value
  | _ => Option.none

theorem name?_eq_some_iff {key : PyKey} {name : String} :
    key.name? = some name ↔ key = .text name := by
  cases key <;> simp [name?]

end PyKey

namespace PyValue

universe u

variable {Error : Type u} (keyError valueError : Error)

mutual

/-- The document that a value is, where nothing in it changes its meaning when it is
written. -/
def document : PyValue → Except Error Json
  | none => pure .null
  | bool value => pure (.bool value)
  | int value => pure (.int value)
  | float literal => pure (.float literal.literal)
  | nonFinite => pure (.float "NaN")
  | text value => pure (.text value)
  | list items => do
      let items ← documentItems items
      pure (.array items)
  | tuple _ => .error valueError
  | dict fields => do
      let fields ← documentFields fields
      pure (.object fields)
  | other => .error valueError

def documentItems : List PyValue → Except Error (List Json)
  | [] => pure []
  | item :: rest => do
      let item ← document item
      let rest ← documentItems rest
      pure (item :: rest)

def documentFields : List (PyKey × PyValue) → Except Error (List (String × Json))
  | [] => pure []
  | (key, value) :: rest => do
      let name ← orRaise keyError key.name?
      let value ← document value
      let rest ← documentFields rest
      pure ((name, value) :: rest)

end

/-- A dictionary has each key once. -/
def HasKeysOnce : PyValue → Prop
  | dict fields => (fields.map Prod.fst).Nodup
  | _ => True

variable {keyError valueError : Error}

theorem documentItems_cons {item : PyValue} {rest : List PyValue} {documents : List Json}
    (hdocuments : documentItems keyError valueError (item :: rest) = .ok documents) :
    ∃ first others, document keyError valueError item = .ok first ∧
      documentItems keyError valueError rest = .ok others ∧ documents = first :: others := by
  obtain ⟨first, hfirst, hrest⟩ := bind_eq_ok hdocuments
  obtain ⟨others, hothers, hanswer⟩ := bind_eq_ok hrest
  exact ⟨first, others, hfirst, hothers, (Except.ok.inj hanswer).symm⟩

theorem documentFields_cons {field : PyKey × PyValue} {rest : List (PyKey × PyValue)}
    {documents : List (String × Json)}
    (hdocuments : documentFields keyError valueError (field :: rest) = .ok documents) :
    ∃ name value others, field.1 = .text name ∧
      document keyError valueError field.2 = .ok value ∧
        documentFields keyError valueError rest = .ok others ∧
          documents = (name, value) :: others := by
  obtain ⟨name, hname, hvalued⟩ := orRaise_bind_eq_ok hdocuments
  obtain ⟨value, hvalue, hrest⟩ := bind_eq_ok hvalued
  obtain ⟨others, hothers, hanswer⟩ := bind_eq_ok hrest
  exact ⟨name, value, others, PyKey.name?_eq_some_iff.mp hname, hvalue, hothers,
    (Except.ok.inj hanswer).symm⟩

mutual

/-- A document is read back as it is written. -/
theorem readable_document {value : PyValue} {document' : Json}
    (hdocument : document keyError valueError value = .ok document') : document'.Readable := by
  match value with
  | none => obtain rfl := Except.ok.inj hdocument; exact trivial
  | bool _ => obtain rfl := Except.ok.inj hdocument; exact trivial
  | int _ => obtain rfl := Except.ok.inj hdocument; exact trivial
  | float literal => obtain rfl := Except.ok.inj hdocument; exact literal.isFloat
  | nonFinite => obtain rfl := Except.ok.inj hdocument; exact Or.inr (by decide)
  | text _ => obtain rfl := Except.ok.inj hdocument; exact trivial
  | list items =>
      obtain ⟨documents, hdocuments, hanswer⟩ := bind_eq_ok hdocument
      obtain rfl := Except.ok.inj hanswer
      exact Json.readableItems_iff.mpr (readable_documentItems hdocuments)
  | dict fields =>
      obtain ⟨documents, hdocuments, hanswer⟩ := bind_eq_ok hdocument
      obtain rfl := Except.ok.inj hanswer
      exact Json.readableFields_iff.mpr (readable_documentFields hdocuments)
  | tuple _ => cases hdocument
  | other => cases hdocument

theorem readable_documentItems {items : List PyValue} {documents : List Json}
    (hdocuments : documentItems keyError valueError items = .ok documents) :
    ∀ item ∈ documents, item.Readable := by
  match items with
  | [] =>
      obtain rfl := Except.ok.inj hdocuments
      simp
  | item :: rest =>
      obtain ⟨first, others, hfirst, hothers, rfl⟩ := documentItems_cons hdocuments
      rw [List.forall_mem_cons]
      exact ⟨readable_document hfirst, readable_documentItems hothers⟩

theorem readable_documentFields {fields : List (PyKey × PyValue)}
    {documents : List (String × Json)}
    (hdocuments : documentFields keyError valueError fields = .ok documents) :
    ∀ value ∈ documents.map Prod.snd, value.Readable := by
  match fields with
  | [] =>
      obtain rfl := Except.ok.inj hdocuments
      simp
  | (key, value) :: rest =>
      obtain ⟨name, first, others, -, hfirst, hothers, rfl⟩ := documentFields_cons hdocuments
      rw [List.map_cons, List.forall_mem_cons]
      exact ⟨readable_document hfirst, readable_documentFields hothers⟩

end

/-- A record of documents is one. -/
theorem document_record {fields : List (String × PyValue)} {written : List (String × Json)}
    (hfields : List.Forall₂ (fun field document' =>
      field.1 = document'.1 ∧ document keyError valueError field.2 = .ok document'.2)
      fields written) :
    document keyError valueError (record fields) = .ok (.object written) := by
  have hwritten : documentFields keyError valueError
      (fields.map fun field => (.text field.1, field.2)) = .ok written := by
    induction hfields with
    | nil => rfl
    | cons hfield _ ih =>
        rw [List.map_cons, documentFields, PyKey.name?, hfield.1, hfield.2, ih]
        rfl
  rw [record, document, hwritten]
  rfl

/-- The keys of a document are the texts that the keys are. -/
theorem keys_documentFields {fields : List (PyKey × PyValue)} {documents : List (String × Json)}
    (hdocuments : documentFields keyError valueError fields = .ok documents) :
    fields.map Prod.fst = (documents.map Prod.fst).map PyKey.text := by
  induction fields generalizing documents with
  | nil =>
      obtain rfl := Except.ok.inj hdocuments
      rfl
  | cons field rest ih =>
      obtain ⟨name, value, others, hname, -, hothers, rfl⟩ := documentFields_cons hdocuments
      rw [List.map_cons, List.map_cons, List.map_cons, hname, ih hothers]

theorem item_documentFields {fields : List (PyKey × PyValue)} {documents : List (String × Json)}
    (hdocuments : documentFields keyError valueError fields = .ok documents) (key : String) :
    document keyError valueError ((dict fields).item key) =
      .ok ((Json.object documents).get key) := by
  induction fields generalizing documents with
  | nil =>
      obtain rfl := Except.ok.inj hdocuments
      rfl
  | cons field rest ih =>
      obtain ⟨name, value, others, hname, hvalue, hothers, rfl⟩ := documentFields_cons hdocuments
      have hrest := ih hothers
      rw [item, lookup?] at hrest ⊢
      rw [Json.get, Json.get?] at hrest ⊢
      rw [List.find?_cons, List.lookup_cons, hname]
      by_cases hkey : key = name
      · have hnamed : PyKey.isNamed key (.text name) = true := decide_eq_true hkey.symm
        rw [hnamed, beq_iff_eq.mpr hkey]
        exact hvalue
      · have hnamed : PyKey.isNamed key (.text name) = false :=
          decide_eq_false fun hsame => hkey hsame.symm
        rw [hnamed, beq_false_of_ne hkey]
        exact hrest

/-- An item of a value is that of its document. -/
theorem item_document {value : PyValue} (hdict : value.isDict = true) {written : Json}
    (hwritten : document keyError valueError value = .ok written) (key : String) :
    document keyError valueError (value.item key) = .ok (written.get key) := by
  cases value with
  | dict fields =>
      obtain ⟨documents, hdocuments, hanswer⟩ := bind_eq_ok hwritten
      obtain rfl := Except.ok.inj hanswer
      exact item_documentFields hdocuments key
  | _ => cases hdict

theorem isObject_document {value : PyValue} (hdict : value.isDict = true) {written : Json}
    (hwritten : document keyError valueError value = .ok written) : written.isObject = true := by
  cases value with
  | dict fields =>
      obtain ⟨documents, -, hanswer⟩ := bind_eq_ok hwritten
      obtain rfl := Except.ok.inj hanswer
      rfl
  | _ => cases hdict

theorem nodup_keys_document {value : PyValue} (honce : value.HasKeysOnce) {written : Json}
    (hwritten : document keyError valueError value = .ok written) : written.keys.Nodup := by
  cases value with
  | dict fields =>
      obtain ⟨documents, hdocuments, hanswer⟩ := bind_eq_ok hwritten
      obtain rfl := Except.ok.inj hanswer
      rw [HasKeysOnce, keys_documentFields hdocuments] at honce
      exact honce.of_map
  | tuple _ => cases hwritten
  | other => cases hwritten
  | list items =>
      obtain ⟨documents, -, hanswer⟩ := bind_eq_ok hwritten
      obtain rfl := Except.ok.inj hanswer
      exact List.nodup_nil
  | _ =>
      obtain rfl := Except.ok.inj hwritten
      exact List.nodup_nil

/-- A value that is a text is written as it, and no other is. -/
theorem text?_document {value : PyValue} {written : Json}
    (hwritten : document keyError valueError value = .ok written) : written.text? = value.text? := by
  cases value with
  | tuple _ => cases hwritten
  | other => cases hwritten
  | list items =>
      obtain ⟨documents, -, hanswer⟩ := bind_eq_ok hwritten
      obtain rfl := Except.ok.inj hanswer
      rfl
  | dict fields =>
      obtain ⟨documents, -, hanswer⟩ := bind_eq_ok hwritten
      obtain rfl := Except.ok.inj hanswer
      rfl
  | _ =>
      obtain rfl := Except.ok.inj hwritten
      rfl

end PyValue

end AegisForge.Core
