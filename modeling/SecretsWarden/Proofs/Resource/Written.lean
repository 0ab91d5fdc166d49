import SecretsWarden.Proofs.Json.Record
import SecretsWarden.Proofs.Resource.Reading

/-!
# The forms in which the configuration is written

A condition, a spec and a status are each written as an object, in which absent fields are left
out. Reading takes more than that: the members may come in any order, members of unknown names may
stand among them, and a condition or a spec may be an array of its fields, with null for what is
absent. Whatever the form, what was written is what is read, from a value as from a text.
-/

namespace SecretsWarden.Resource

open Json Shape

variable {context : Context}

/-! ## Values without parts -/

theorem read_text_orNull (t : Option String) :
    (nullable text).read context (.ofValue ((t.map .string).getD .null)) =
      .ok ((t.map .string).getD .null) := by
  cases t <;> rfl

theorem read_int64_orNull (n : Option Int64) :
    (nullable int64).read context (.ofValue ((n.map fun n => .ofInt n.toInt).getD .null)) =
      .ok ((n.map fun n => .ofInt n.toInt).getD .null) := by
  cases n with
  | none => rfl
  | some n =>
      show readNumber (.integer n.toInt) int64 = _
      rw [int64, readNumber, if_pos (Condition.toInt_in_range n)]
      rfl

/-! ## Conditions -/

namespace Condition

variable {c : Condition}

/-- Reads a condition. -/
def reader : Reader Condition where
  shape
  ofJson?

/-- The fields of a condition in their order, with null for what is absent. -/
def places (c : Condition) : List Value :=
  [.string c.type, .string c.status, (c.reason.map .string).getD .null,
    (c.message.map .string).getD .null,
    (c.observedGeneration.map fun n => .ofInt n.toInt).getD .null,
    (c.lastTransitionTime.map .string).getD .null]

/-- The forms of a condition. -/
inductive Written (c : Condition) : Value → Prop where
  | members {more : List (String × Value)} (h : Among fields c.toJson.membersOrNone more) :
      Written c (.object more)
  | places : Written c (.array c.places)

theorem ofJson?_congr {members more : List (String × Value)}
    (h : ∀ n ∈ fields, more.lookup n = members.lookup n) :
    ofJson? (.object more) = ofJson? (.object members) := by
  simp only [ofJson?, Value.record?, Option.bind_eq_bind, Option.bind_some, required,
    Json.optional, h "type" (by decide), h "status" (by decide), h "reason" (by decide),
    h "message" (by decide), h "observedGeneration" (by decide),
    h "lastTransitionTime" (by decide)]

theorem ofJson?_places (c : Condition) : ofJson? (.array c.places) = some c := by
  obtain ⟨type, status, reason, message, generation, time⟩ := c
  cases reason <;> cases message <;> cases generation <;> cases time <;>
    simp [ofJson?, places, fields, Value.record?, required, Json.optional, List.lookup_cons,
      string?_string, int64?_integer, Value.ofInt]

theorem keeps_members (c : Condition) : ∀ m ∈ c.toJson.membersOrNone,
    Keeps context shape.recordFields m m := by
  have htype : Keeps context shape.recordFields ("type", .string c.type)
    ("type", .string c.type) := ⟨rfl, text, rfl, rfl⟩
  have hstatus : Keeps context shape.recordFields ("status", .string c.status)
    ("status", .string c.status) := ⟨rfl, text, rfl, rfl⟩
  simp only [toJson, Value.membersOrNone, List.forall_mem_append, List.forall_mem_cons]
  refine ⟨⟨⟨⟨⟨htype, hstatus, List.forall_mem_nil _⟩, ?_⟩, ?_⟩, ?_⟩, ?_⟩
  · exact keeps_optionalMember rfl (read_text_orNull c.reason)
  · exact keeps_optionalMember rfl (read_text_orNull c.message)
  · exact keeps_optionalMember rfl (read_int64_orNull c.observedGeneration)
  · exact keeps_optionalMember rfl (read_text_orNull c.lastTransitionTime)

theorem nodup_members (c : Condition) : (c.toJson.membersOrNone.map Prod.fst).Nodup := by
  obtain ⟨type, status, reason, message, generation, time⟩ := c
  cases reason <;> cases message <;> cases generation <;> cases time <;>
    simp [toJson, Value.membersOrNone, optionalMember]

theorem isComplete_members (c : Condition) :
    isComplete shape.recordFields c.toJson.membersOrNone = true := rfl

theorem fits_places (c : Condition) :
    List.Forall₂ (fun field v => field.2.2.read context (.ofValue v) = .ok v)
      shape.recordFields c.places := by
  refine .cons rfl (.cons rfl (.cons ?_ (.cons ?_ (.cons ?_ (.cons ?_ .nil)))))
  · exact read_text_orNull c.reason
  · exact read_text_orNull c.message
  · exact read_int64_orNull c.observedGeneration
  · exact read_text_orNull c.lastTransitionTime

/-- A condition is read from each of its forms. -/
theorem takes_written {v : Value} (h : c.Written v) : reader.Takes v c := by
  cases h with
  | members h =>
      exact Reader.takes_members rfl (fun _ => keeps_members c) (nodup_members c)
        (isComplete_members c) (fun _ hms => (ofJson?_congr hms).trans (ofJson?_toJson c)) h
  | places =>
      exact Reader.takes_places rfl (fun _ => fits_places c) (by decide) (ofJson?_places c)
        (ofJson?_places c)

/-- Members in another order, and one that nobody asked for. -/
example : ({ type := "Ready", status := "True" } : Condition).Written (.object
    [("status", .string "True"), ("note", .array [.null]), ("type", .string "Ready")]) :=
  .members (.swap _ _ _)

theorem written_toJson (c : Condition) : c.Written c.toJson :=
  .members (among_self fun m hm => (@keeps_members {} c m hm).mem)

theorem readsBack : reader.ReadsBack toJson Written :=
  Reader.readsBack written_toJson fun _ _ => takes_written

end Condition

namespace SecretsConfig

/-! ## Specs -/

namespace Spec

/-- Reads a spec. -/
def reader : Reader Spec where
  shape
  ofJson?

def fields : List String := ["injectAnnotations", "providerMode"]

/-- The fields of a spec in their order, with null for an absent mode. -/
def places (s : Spec) : List Value :=
  [.bool s.injectAnnotations, (s.providerMode.map fun m => .string m.text).getD .null]

/-- The forms of a spec. -/
inductive Written (s : Spec) : Value → Prop where
  | members {more : List (String × Value)} (h : Among fields s.toJson.membersOrNone more) :
      Written s (.object more)
  | places : Written s (.array s.places)

theorem ofJson?_congr {members more : List (String × Value)}
    (h : ∀ n ∈ fields, more.lookup n = members.lookup n) :
    ofJson? (.object more) = ofJson? (.object members) := by
  simp only [ofJson?, Value.record?, Option.bind_eq_bind, Option.bind_some, defaulted,
    Json.optional, h "injectAnnotations" (by decide), h "providerMode" (by decide)]

theorem ofJson?_toJson (s : Spec) : ofJson? s.toJson = some s := by
  obtain ⟨inject, mode⟩ := s
  rcases mode with _ | mode
  · rfl
  · cases mode <;> rfl

theorem ofJson?_places (s : Spec) : ofJson? (.array s.places) = some s := by
  obtain ⟨inject, mode⟩ := s
  rcases mode with _ | mode
  · rfl
  · cases mode <;> rfl

theorem read_mode_orNull (mode : Option ProviderMode) :
    (nullable (choice ["Enabled", "Disabled"])).read context
        (.ofValue ((mode.map fun m => .string m.text).getD .null)) =
      .ok ((mode.map fun m => .string m.text).getD .null) := by
  rcases mode with _ | mode
  · rfl
  · cases mode <;> rfl

theorem keeps_members (s : Spec) : ∀ m ∈ s.toJson.membersOrNone,
    Keeps context shape.recordFields m m := by
  have hinject : Keeps context shape.recordFields ("injectAnnotations", .bool s.injectAnnotations)
    ("injectAnnotations", .bool s.injectAnnotations) := ⟨rfl, flag, rfl, rfl⟩
  simp only [toJson, Value.membersOrNone, List.forall_mem_append, List.forall_mem_cons]
  exact ⟨⟨hinject, List.forall_mem_nil _⟩,
    keeps_optionalMember rfl (read_mode_orNull s.providerMode)⟩

theorem nodup_members (s : Spec) : (s.toJson.membersOrNone.map Prod.fst).Nodup := by
  obtain ⟨inject, mode⟩ := s
  cases mode <;> simp [toJson, Value.membersOrNone, optionalMember]

theorem fits_places (s : Spec) :
    List.Forall₂ (fun field v => field.2.2.read context (.ofValue v) = .ok v)
      shape.recordFields s.places :=
  .cons rfl (.cons (read_mode_orNull s.providerMode) .nil)

theorem takes_written {s : Spec} {v : Value} (h : s.Written v) : reader.Takes v s := by
  cases h with
  | members h =>
      exact Reader.takes_members rfl (fun _ => keeps_members s) (nodup_members s) rfl
        (fun _ hms => (ofJson?_congr hms).trans (ofJson?_toJson s)) h
  | places =>
      exact Reader.takes_places rfl (fun _ => fits_places s) (by decide) (ofJson?_places s)
        (ofJson?_places s)

theorem written_toJson (s : Spec) : s.Written s.toJson :=
  .members (among_self fun m hm => (@keeps_members {} s m hm).mem)

theorem readsBack : reader.ReadsBack toJson Written :=
  Reader.readsBack written_toJson fun _ _ => takes_written

end Spec

/-! ## Statuses -/

namespace Status

/-- Reads a status. -/
def reader : Reader Status where
  shape
  ofJson?

def fields : List String := ["conditions"]

/-- The forms of a status. Each of its conditions may have any of their forms. -/
inductive Written : Status → Value → Prop where
  | absent {more : List (String × Value)} (h : Among fields [] more) : Written ⟨[]⟩ (.object more)
  | present {cs : List Condition} {items : List Value} {more : List (String × Value)}
      (hitems : List.Forall₂ Condition.Written cs items)
      (h : Among fields [("conditions", .array items)] more) : Written ⟨cs⟩ (.object more)

theorem ofJson?_of_none {members : List (String × Value)}
    (h : members.lookup "conditions" = none) : ofJson? (.object members) = some ⟨[]⟩ := by
  simp only [ofJson?, Value.record?, Option.bind_eq_bind, Option.bind_some, defaulted, h]

theorem ofJson?_of_lookup {members : List (String × Value)} {items : List Value}
    {cs : List Condition} (h : members.lookup "conditions" = some (.array items))
    (hitems : items.mapM Condition.ofJson? = some cs) :
    ofJson? (.object members) = some ⟨cs⟩ := by
  simp only [ofJson?, Value.record?, Option.bind_eq_bind, Option.bind_some, defaulted, h,
    Value.list?, hitems]

theorem takes_written {s : Status} {v : Value} (h : s.Written v) : reader.Takes v s := by
  cases h with
  | absent h =>
      refine Reader.takes_members rfl ?_ ?_ rfl (fun ms hms => ?_) h
      · exact fun _ => List.forall_mem_nil _
      · exact .nil
      · exact ofJson?_of_none (hms "conditions" (by decide))
  | @present cs items more hitems h =>
      have htakes : List.Forall₂ (fun c w => Condition.reader.Takes w c) cs items :=
        hitems.imp fun _ _ => Condition.takes_written
      obtain ⟨hread, htexts⟩ := Reader.takes_items htakes
      have hlookup : more.lookup "conditions" = some (.array items) :=
        h.lookup (by simp) (by decide)
      refine ⟨ofJson?_of_lookup hlookup hread, fun isHeld => ?_⟩
      obtain ⟨kept, hkept, hkeptread⟩ := htexts isHeld
      -- of all members only the conditions are kept
      have hfilter : (more.filter fun m => m.1 ∈ shape.recordFields.map Prod.fst) =
          [("conditions", .array items)] := List.perm_singleton.mp h
      have hkeeps : List.Forall₂ (Keeps ⟨[], isHeld⟩ shape.recordFields)
          (more.filter fun m => m.1 ∈ shape.recordFields.map Prod.fst)
          [("conditions", .array kept)] := by
        rw [hfilter]
        exact .cons ⟨rfl, .list Condition.shape, rfl, read_list hkept⟩ .nil
      exact Reader.read_eq_ok_iff.mpr
        ⟨_, read_members hkeeps (by simp) rfl, ofJson?_of_lookup rfl hkeptread⟩

theorem written_toJson (s : Status) : s.Written s.toJson := by
  obtain ⟨cs⟩ := s
  cases cs with
  | nil => exact .absent (among_self (List.forall_mem_nil _))
  | cons c rest =>
      have hitems : List.Forall₂ Condition.Written (c :: rest) ((c :: rest).map Condition.toJson) :=
        List.forall₂_map_right_iff.mpr
          (List.forall₂_same.mpr fun c _ => c.written_toJson)
      exact .present hitems (among_self (by simp [fields]))

theorem readsBack : reader.ReadsBack toJson Written :=
  Reader.readsBack written_toJson fun _ _ => takes_written

end Status

end SecretsConfig

end SecretsWarden.Resource
