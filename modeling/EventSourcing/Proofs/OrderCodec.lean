import EventSourcing.Order.Event
import EventSourcing.Proofs.JsonText
import EventSourcing.Proofs.Streams
import EventSourcing.Proofs.TimestampText
import EventSourcing.Proofs.UuidText

/-!
# The codec of order events

Every event of an order is read back from its stored text (`Order.Event.read_write`), and its tag
is one that is accepted: the schema of orders is faithful (`Order.schema_faithful`).

* `Json.fields?_record`: a record that is written as an object has its own fields;
* `Json.tagged?_record`: a written tagged value has its own name and content;
* for every domain value, its reader undoes its writer.
-/

namespace EventSourcing

namespace Json

/-! ## Records -/

theorem mapM_members (fields : List (String × Json)) :
    (fields.map fun field => (some field.1, field.2)).mapM
      (fun m : Option String × Json => do return (← m.1, m.2)) = some fields := by
  induction fields with
  | nil => rfl
  | cons field rest ih =>
    rw [List.map_cons, List.mapM_cons, ih]
    rfl

/-- The fields that a record is written with. -/
def Fields.ofList (fields : List (String × Json)) : Fields := fun name => fields.lookup name

@[simp]
theorem Fields.ofList_nil (key : String) : ofList [] key = none := rfl

@[simp]
theorem Fields.ofList_cons (name key : String) (value : Json) (fields : List (String × Json)) :
    ofList ((name, value) :: fields) key = if key = name then some value else ofList fields key := by
  show List.lookup key ((name, value) :: fields) = _
  rw [List.lookup_cons]
  by_cases hkey : key = name
  · rw [if_pos hkey, beq_iff_eq.2 hkey]
  · rw [if_neg hkey, beq_eq_false_iff_ne.2 hkey]
    rfl

/-- A record whose names are apart is read as its own fields. -/
theorem fields?_record {fields : List (String × Json)} {names : List String} {least : Nat}
    (h : (fields.map Prod.fst).Nodup) :
    (record fields).fields? names least = some (.ofList fields) := by
  have hcount : (names.all fun name => (fields.map Prod.fst).count name ≤ 1) = true := by
    rw [List.all_eq_true]
    intro name _
    exact decide_eq_true (List.nodup_iff_count.1 h name)
  rw [record, fields?, mapM_members, Option.bind_eq_bind, Option.bind_some]
  exact if_pos hcount

/-- A tagged value is read as its own name and content. -/
theorem tagged?_record (name : String) (content : Json) :
    (record [("type", text name), ("data", content)]).tagged? = some (name, some content) := by
  rw [record, tagged?, mapM_members, Option.bind_eq_bind, Option.bind_some]
  simp [List.lookup_cons, text, variant?]

/-! ## Values -/

theorem integer?_ofInt (n : Int) : (Number.ofInt n).integer? = some n := by
  unfold Number.integer? Number.ofInt
  rw [if_pos ⟨rfl, rfl⟩]
  by_cases hneg : n < 0
  · have hwhole : n.natAbs ≠ 0 := by omega
    have habs : -(n.natAbs : Int) = n := by omega
    rw [if_pos (decide_eq_true hneg), if_neg hwhole, habs]
  · have habs : (n.natAbs : Int) = n := by omega
    rw [if_neg (mt of_decide_eq_true hneg), habs]

@[simp]
theorem int32?_int (n : Int32) : (int n.toInt).int32? = some n := by
  have hrange : Int32.minValue.toInt ≤ n.toInt ∧ n.toInt ≤ Int32.maxValue.toInt :=
    ⟨n.minValue_le_toInt, n.toInt_le⟩
  rw [int32?, int, integer?, integer?_ofInt]
  show (if _ then some (Int32.ofInt n.toInt) else none) = _
  rw [if_pos hrange, Int32.ofInt_toInt]

theorem list?_array {α : Type} {read : Json → Option α} {write : α → Json}
    (h : ∀ a, read (write a) = some a) (as : List α) :
    (array (as.map write)).list? read = some as := by
  rw [list?, List.mapM_map]
  induction as with
  | nil => rfl
  | cons a as ih =>
    rw [List.mapM_cons, ih, Function.comp_apply, h]
    rfl

/-- An optional value that is never written as null keeps apart from no value. -/
theorem nullable?_ofOption {α : Type} {read : Json → Option α} {write : α → Json}
    (h : ∀ a, read (write a) = some a) (hnull : ∀ a, write a ≠ null) (o : Option α) :
    nullable? read (ofOption write o) = some o := by
  cases o with
  | none => rfl
  | some a =>
    rw [ofOption, nullable?]
    · rw [h, Option.map_some]
    · exact hnull a

@[simp]
theorem text?_text (s : String) : (text s).text? = some s := rfl

end Json

@[simp]
theorem Uuid.ofJson?_toJson (id : Uuid) : ofJson? id.toJson = some id := by
  rw [ofJson?, toJson, Json.text?_text, Option.bind_some, ofText?_text]

@[simp]
theorem AggregateId.ofJson?_toJson {kind : IdKind} (id : AggregateId kind) :
    ofJson? id.toJson = some id := by
  rw [ofJson?, toJson, Uuid.ofJson?_toJson, Option.map_some]

@[simp]
theorem Timestamp.ofJson?_toJson (t : Timestamp) : ofJson? t.toJson = some t := by
  rw [ofJson?, toJson, Json.text?_text, Option.bind_some, parse_text]

namespace Order

@[simp]
theorem Item.ofJson?_toJson (item : Item) : ofJson? item.toJson = some item := by
  rw [ofJson?, toJson, Json.record?, Json.fields?_record (by simp)]
  simp [Json.Fields.required]

namespace Event

/-! ## Events -/

theorem ofContent?_content (e : Event) : ofContent? e.name e.content = some e := by
  have hitems := Json.list?_array Item.ofJson?_toJson
  have htext := Json.nullable?_ofOption Json.text?_text (by simp [Json.text])
  have hid := Json.nullable?_ofOption Uuid.ofJson?_toJson (by simp [Uuid.toJson, Json.text])
  cases e with
  | created customer items createdAt =>
    show created? _ = _
    rw [created?, content, Json.record?, Json.fields?_record (by simp)]
    simp [Json.Fields.required, hitems]
  | itemsUpdated items reason =>
    show itemsUpdated? _ = _
    rw [itemsUpdated?, content, Json.record?, Json.fields?_record (by simp)]
    simp [Json.Fields.required, Json.Fields.optional, hitems, htext]
  | confirmed confirmedAt =>
    show confirmed? _ = _
    rw [confirmed?, content, Json.record?, Json.fields?_record (by simp)]
    simp [Json.Fields.required]
  | shipped trackingNumber carrier shippedAt =>
    show shipped? _ = _
    rw [shipped?, content, Json.record?, Json.fields?_record (by simp)]
    simp [Json.Fields.required]
  | delivered deliveredAt signature =>
    show delivered? _ = _
    rw [delivered?, content, Json.record?, Json.fields?_record (by simp)]
    simp [Json.Fields.required, Json.Fields.optional, htext]
  | cancelled reason cancelledBy =>
    show cancelled? _ = _
    rw [cancelled?, content, Json.record?, Json.fields?_record (by simp)]
    simp [Json.Fields.optional, htext, hid]

theorem ofJson?_toJson (e : Event) : ofJson? e.toJson = some e := by
  rw [ofJson?, toJson, Json.tagged?_record]
  exact ofContent?_content e

/-- Every event is read back from its stored text. -/
theorem read_write (e : Event) : read e.write = some e := by
  rw [read, write, Json.parse_render, Option.bind_some, ofJson?_toJson]

theorem tag_mem_tags (e : Event) : e.tag ∈ tags := by
  cases e <;> simp [tag, tags]

end Event

/-- The tag of every order event is accepted, and every order event is read back. -/
theorem schema_faithful : schema.Faithful where
  tag_listed e := List.contains_iff_mem.2 e.tag_mem_tags
  read_write e text h := by
    cases h
    exact e.read_write

end Order

end EventSourcing
