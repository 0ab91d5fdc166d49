import Mathlib.Data.List.Induction
import Mathlib.Data.List.Nodup
import SecretsWarden.Json.Reader
import SecretsWarden.Proofs.Json.Path

/-!
# Reading records

A record is read by the names of its fields. Members of other names may stand among its own ones,
and these may come in any order: what is looked up by a known name is the same (`Among.lookup`),
and a reader that goes through a text meets no fault at the others and keeps only its own
(`read_members`). The fields may also stand in an array, in their order (`read_places`).
-/

namespace SecretsWarden.Json

variable {members more kept : List (String × Value)} {known : List String} {name : String}
  {v : Value}

/-! ## Looking up names that come once -/

theorem lookup_isSome {α : Type} {entries : List (String × α)} :
    (entries.lookup name).isSome = true ↔ name ∈ entries.map Prod.fst := by
  simp [List.lookup_isSome_iff]

theorem lookup_eq_some_iff (hnodup : (members.map Prod.fst).Nodup) :
    members.lookup name = some v ↔ (name, v) ∈ members := by
  induction members with
  | nil => simp
  | cons m rest ih =>
      obtain ⟨n, w⟩ := m
      rw [List.map_cons, List.nodup_cons] at hnodup
      rw [Value.lookup_cons_eq_ite, List.mem_cons]
      by_cases hname : name = n
      · subst hname
        have hrest : (name, v) ∉ rest := fun hmem => hnodup.1 (List.mem_map.mpr ⟨_, hmem, rfl⟩)
        simp [hrest, eq_comm]
      · simp [hname, ih hnodup.2]

theorem lookup_eq_of_perm (h : members.Perm more) (hnodup : (members.map Prod.fst).Nodup) :
    members.lookup name = more.lookup name := by
  have hmore : (more.map Prod.fst).Nodup := (h.map Prod.fst).nodup_iff.mp hnodup
  refine Option.ext fun v => ?_
  rw [lookup_eq_some_iff hnodup, lookup_eq_some_iff hmore, h.mem_iff]

/-- Each name has its last value already if none comes twice. -/
theorem foldMembers_of_nodup (h : (members.map Prod.fst).Nodup) :
    Value.foldMembers members = members := by
  have hbind : ∀ (ms : List (String × Value)) (n : String) (w : Value), n ∉ ms.map Prod.fst →
      Value.bind n w ms = ms ++ [(n, w)] := by
    intro ms n w hn
    induction ms with
    | nil => rfl
    | cons m rest ih =>
        rw [List.map_cons, List.mem_cons, not_or] at hn
        rw [Value.bind, if_neg (Ne.symm hn.1), ih hn.2, List.cons_append]
  induction members using List.reverseRecOn with
  | nil => rfl
  | append_singleton ms m ih =>
      rw [List.map_append, List.nodup_append] at h
      unfold Value.foldMembers at ih ⊢
      rw [List.foldl_append, ih h.1]
      exact hbind ms m.1 m.2 fun hmem => h.2.2 m.1 hmem m.1 (by simp) rfl

/-! ## Members among others -/

/-- The members, in some order, among others of names that are not known. -/
def Among (known : List String) (members more : List (String × Value)) : Prop :=
  (more.filter fun m => m.1 ∈ known).Perm members

/-- Members of known names are there when nothing else is. -/
theorem among_self (h : ∀ m ∈ members, m.1 ∈ known) : Among known members members := by
  have hfilter : (members.filter fun m => m.1 ∈ known) = members :=
    List.filter_eq_self.mpr fun m hm => decide_eq_true (h m hm)
  rw [Among, hfilter]

theorem lookup_filter_known (h : name ∈ known) (more : List (String × Value)) :
    (more.filter fun m => m.1 ∈ known).lookup name = more.lookup name := by
  induction more with
  | nil => rfl
  | cons m rest ih =>
      obtain ⟨n, w⟩ := m
      rw [Value.lookup_cons_eq_ite, List.filter_cons]
      by_cases hname : name = n
      · subst hname
        simp [h]
      · by_cases hn : n ∈ known <;> simp [hn, hname, Value.lookup_cons_eq_ite, ih]

/-- The names of a record look up the same, whatever else there is. -/
theorem Among.lookup (h : Among known members more) (hnodup : (members.map Prod.fst).Nodup)
    (hname : name ∈ known) : more.lookup name = members.lookup name := by
  rw [← lookup_filter_known hname more]
  exact (lookup_eq_of_perm h.symm hnodup).symm

/-! ## Going through a text -/

mutual

/-- A value that is complete is skipped without a fault. -/
theorem skip_ofValue : (v : Value) → (Raw.ofValue v).skip = none
  | .null => rfl
  | .bool _ => rfl
  | .number _ => rfl
  | .string _ => rfl
  | .array items => by
      rw [Raw.ofValue, Raw.skip, skipItems_ofItems items]
      rfl
  | .object members => by
      rw [Raw.ofValue, Raw.skip, skipMembers_ofMembers members]
      rfl

theorem skipItems_ofItems : (items : List Value) → Raw.skipItems (Raw.ofItems items) = none
  | [] => rfl
  | v :: rest => by
      rw [Raw.ofItems, Raw.skipItems, skip_ofValue v, skipItems_ofItems rest]
      rfl

theorem skipMembers_ofMembers :
    (members : List (String × Value)) → Raw.skipMembers (Raw.ofMembers members) = none
  | [] => rfl
  | (_, v) :: rest => by
      rw [Raw.ofMembers, Raw.skipMembers, skip_ofValue v, skipMembers_ofMembers rest]
      rfl

end

namespace Shape

variable {c : Context} {fields : List (String × Presence × Shape)}

/-- The fields of a record, none of any other shape. -/
def recordFields : Shape → List (String × Presence × Shape)
  | record fields => fields
  | _ => []

/-- A member of a record, and the form in which its value is kept. -/
def Keeps (c : Context) (fields : List (String × Presence × Shape)) (m k : String × Value) :
    Prop :=
  k.1 = m.1 ∧ ∃ shape, (shapesOf fields).lookup m.1 = some shape ∧
    shape.read c (.ofValue m.2) = .ok k.2

theorem Keeps.mem {m k : String × Value} (h : Keeps c fields m k) : m.1 ∈ fields.map Prod.fst := by
  obtain ⟨_, shape, hshape, _⟩ := h
  have hmem := lookup_isSome.mp (Option.isSome_of_eq_some hshape)
  simpa [shapesOf, Function.comp_def] using hmem

theorem keeps_optionalMember {v? : Option Value} {shape : Shape}
    (hshape : (shapesOf fields).lookup name = some shape)
    (hread : shape.read c (.ofValue (v?.getD .null)) = .ok (v?.getD .null)) :
    ∀ m ∈ optionalMember name v?, Keeps c fields m m := by
  intro m hm
  cases v? with
  | none => cases hm
  | some v =>
      cases List.mem_singleton.mp hm
      exact ⟨rfl, shape, hshape, hread⟩

theorem lookup_shapesOf_eq_none (h : name ∉ fields.map Prod.fst) :
    (shapesOf fields).lookup name = none := by
  rw [← Option.not_isSome_iff_eq_none, lookup_isSome]
  simpa [shapesOf, Function.comp_def] using h

theorem readMembers_known {seen : List String} {shape : Shape} {r : Raw}
    {rest : List (Raw × Raw)} (hshape : (shapesOf fields).lookup name = some shape)
    (hseen : name ∉ seen) (hread : shape.read c r = .ok v)
    (hrest : readMembers c (shapesOf fields) false false (name :: seen) rest = .ok kept) :
    readMembers c (shapesOf fields) false false seen ((.string (some name), r) :: rest) =
      .ok ((name, v) :: kept) := by
  have hnot : seen.contains name = false := by simpa using hseen
  simp only [readMembers, Raw.name, bind, Except.bind, hshape, hnot, hread, hrest]
  rfl

theorem readMembers_unknown {seen : List String} {r : Raw} {rest : List (Raw × Raw)}
    (hname : name ∉ fields.map Prod.fst) (hskip : r.skip = none) :
    readMembers c (shapesOf fields) false false seen ((.string (some name), r) :: rest) =
      readMembers c (shapesOf fields) false false seen rest := by
  simp only [readMembers, Raw.name, bind, Except.bind, lookup_shapesOf_eq_none hname, hskip]
  rfl

theorem readMembers_ofMembers {seen : List String}
    (h : List.Forall₂ (Keeps c fields) (more.filter fun m => m.1 ∈ fields.map Prod.fst) kept)
    (hnodup : (kept.map Prod.fst).Nodup) (hseen : ∀ k ∈ kept, k.1 ∉ seen) :
    readMembers c (shapesOf fields) false false seen (Raw.ofMembers more) = .ok kept := by
  induction more generalizing kept seen with
  | nil =>
      cases h
      rw [Raw.ofMembers, readMembers]
  | cons m rest ih =>
      obtain ⟨n, w⟩ := m
      rw [Raw.ofMembers]
      by_cases hn : n ∈ fields.map Prod.fst
      · rw [List.filter_cons_of_pos (by simpa using hn)] at h
        obtain ⟨⟨n', v⟩, ks, ⟨hname, shape, hshape, hread⟩, hrest, rfl⟩ :=
          List.forall₂_cons_left_iff.mp h
        cases hname
        rw [List.map_cons, List.nodup_cons] at hnodup
        refine readMembers_known hshape (hseen _ List.mem_cons_self) hread
          (ih hrest hnodup.2 fun k hk => ?_)
        rw [List.mem_cons, not_or]
        exact ⟨fun heq => hnodup.1 (List.mem_map.mpr ⟨k, hk, heq⟩),
          hseen k (List.mem_cons_of_mem _ hk)⟩
      · rw [List.filter_cons_of_neg (by simpa using hn)] at h
        rw [readMembers_unknown hn (skip_ofValue w)]
        exact ih h hnodup hseen

theorem buildRecord_of_nodup (hcomplete : isComplete fields kept = true)
    (hnodup : (kept.map Prod.fst).Nodup) : buildRecord fields kept = .ok (.object kept) := by
  rw [buildRecord, if_pos hcomplete, Value.ofMembers, foldMembers_of_nodup hnodup]

/-- A record keeps its own members. -/
theorem read_members
    (h : List.Forall₂ (Keeps c fields) (more.filter fun m => m.1 ∈ fields.map Prod.fst) kept)
    (hnodup : (kept.map Prod.fst).Nodup) (hcomplete : isComplete fields kept = true) :
    (record fields).read c (.ofValue (.object more)) = .ok (.object kept) := by
  have hmembers : readMembers c (shapesOf fields) false false [] (Raw.ofMembers more) = .ok kept :=
    readMembers_ofMembers h hnodup fun _ _ => List.not_mem_nil
  rw [Raw.ofValue, read]
  simp only [settle, resolve, hmembers, Raw.close, Except.bind, Bool.false_eq_true, if_false]
  exact buildRecord_of_nodup hcomplete hnodup

/-- Whether all fields are there depends on what their names look up. -/
theorem isComplete_congr (h : ∀ n ∈ fields.map Prod.fst, members.lookup n = more.lookup n) :
    isComplete fields members = isComplete fields more := by
  unfold isComplete
  rw [Bool.eq_iff_iff, List.all_eq_true, List.all_eq_true]
  refine forall₂_congr fun ⟨n, presence, shape⟩ hfield => ?_
  have hn : n ∈ fields.map Prod.fst := List.mem_map_of_mem hfield
  simp only [h n hn]

/-! ## Fields in an array -/

theorem readPlaces_ofItems {items : List Value}
    (h : List.Forall₂ (fun field v => field.2.2.read c (.ofValue v) = .ok v) fields items) :
    readPlaces c fields none (Raw.ofItems items) = .ok ((fields.map Prod.fst).zip items) := by
  induction h with
  | nil =>
      rw [Raw.ofItems, readPlaces]
      rfl
  | cons hread hrest ih =>
      rw [Raw.ofItems, readPlaces]
      simp only [hread, ih, bind, Except.bind]
      rfl

/-- A record takes the items of an array for its fields. -/
theorem read_places {items : List Value}
    (h : List.Forall₂ (fun field v => field.2.2.read c (.ofValue v) = .ok v) fields items)
    (hnodup : (fields.map Prod.fst).Nodup) :
    (record fields).read c (.ofValue (.array items)) =
      .ok (.object ((fields.map Prod.fst).zip items)) := by
  have hnames : ((fields.map Prod.fst).zip items).map Prod.fst = fields.map Prod.fst := by
    rw [List.map_fst_zip]
    simp [h.length_eq]
  have hcomplete : isComplete fields ((fields.map Prod.fst).zip items) = true := by
    unfold isComplete
    rw [List.all_eq_true]
    intro field hfield
    have hname : field.1 ∈ ((fields.map Prod.fst).zip items).map Prod.fst := by
      rw [hnames]
      exact List.mem_map_of_mem hfield
    have hsome := lookup_isSome.mpr hname
    simp [hsome]
  rw [Raw.ofValue, read]
  simp only [settle, resolve, readPlaces_ofItems h, Except.bind, Bool.false_eq_true, if_false]
  exact buildRecord_of_nodup hcomplete (by rwa [hnames])

theorem read_list {item : Shape} {items kept : List Value}
    (h : item.readItems c (Raw.ofItems items) = .ok kept) :
    (list item).read c (.ofValue (.array items)) = .ok (.array kept) := by
  rw [Raw.ofValue, read]
  simp only [settle, resolve, h, Except.bind, Raw.close, Bool.false_eq_true, if_false]

end Shape

/-! ## What a reader takes -/

namespace Reader

open Shape

variable {α : Type} {reader : Reader α} {fields : List (String × Presence × Shape)} {a : α}

/-- Data is read from a value at hand, and from a text in which the value stands. -/
def Takes (reader : Reader α) (v : Value) (a : α) : Prop :=
  reader.ofJson? v = some a ∧ ∀ isHeld, reader.read isHeld (.ofValue v) = .ok a

theorem read_eq_ok_iff {isHeld : Bool} {r : Raw} : reader.read isHeld r = .ok a ↔
    ∃ v, reader.shape.read ⟨reader.table, isHeld⟩ r = .ok v ∧ reader.ofJson? v = some a := by
  unfold read
  cases reader.shape.read ⟨reader.table, isHeld⟩ r with
  | error fault => simp [Except.bind]
  | ok v => cases hread : reader.ofJson? v <;> simp [Except.bind, hread]

/-- A record is read if its members are there, whatever else there is. -/
theorem takes_members (hrecord : reader.shape = .record fields)
    (hkeeps : ∀ c, ∀ m ∈ members, Keeps c fields m m) (hnodup : (members.map Prod.fst).Nodup)
    (hcomplete : isComplete fields members = true)
    (hread : ∀ ms, (∀ n ∈ fields.map Prod.fst, ms.lookup n = members.lookup n) →
      reader.ofJson? (.object ms) = some a)
    (h : Among (fields.map Prod.fst) members more) : reader.Takes (.object more) a := by
  refine ⟨hread more fun n hn => h.lookup hnodup hn, fun isHeld => ?_⟩
  -- the members that are kept are the given ones, in the order in which they stand
  have hnodup' := (h.map Prod.fst).nodup_iff.mpr hnodup
  have hlookup : ∀ n, (more.filter fun m => m.1 ∈ fields.map Prod.fst).lookup n =
      members.lookup n := fun n => lookup_eq_of_perm h hnodup'
  have hcomplete' := (@isComplete_congr _ _ fields fun n _ => hlookup n).trans hcomplete
  have hkeeps' := List.forall₂_same.mpr fun m hm =>
    hkeeps ⟨reader.table, isHeld⟩ m (h.mem_iff.mp hm)
  refine read_eq_ok_iff.mpr ⟨_, ?_, hread _ fun n _ => hlookup n⟩
  rw [hrecord]
  exact Shape.read_members hkeeps' hnodup' hcomplete'

/-- A record is read if its fields are the items of an array. -/
theorem takes_places (hrecord : reader.shape = .record fields) {items : List Value}
    (hitems : ∀ c, List.Forall₂ (fun field v => field.2.2.read c (.ofValue v) = .ok v)
      fields items)
    (hnodup : (fields.map Prod.fst).Nodup) (harray : reader.ofJson? (.array items) = some a)
    (hobject : reader.ofJson? (.object ((fields.map Prod.fst).zip items)) = some a) :
    reader.Takes (.array items) a := by
  refine ⟨harray, fun isHeld => read_eq_ok_iff.mpr ⟨_, ?_, hobject⟩⟩
  rw [hrecord]
  exact Shape.read_places (hitems _) hnodup

/-- The items of a list are read one by one. -/
theorem takes_items {as : List α} {items : List Value}
    (h : List.Forall₂ (fun a v => reader.Takes v a) as items) :
    items.mapM reader.ofJson? = some as ∧
      ∀ isHeld, ∃ kept,
        reader.shape.readItems ⟨reader.table, isHeld⟩ (Raw.ofItems items) = .ok kept ∧
          kept.mapM reader.ofJson? = some as := by
  induction h with
  | nil => exact ⟨rfl, fun _ => ⟨[], by rw [Raw.ofItems, readItems], rfl⟩⟩
  | cons htakes _ ih =>
      obtain ⟨hread, htext⟩ := htakes
      obtain ⟨hrest, htexts⟩ := ih
      refine ⟨by simp [hread, hrest], fun isHeld => ?_⟩
      obtain ⟨w, hw, hwread⟩ := read_eq_ok_iff.mp (htext isHeld)
      obtain ⟨kept, hkept, hkeptread⟩ := htexts isHeld
      refine ⟨w :: kept, ?_, by simp [hwread, hkeptread]⟩
      rw [Raw.ofItems, readItems]
      simp only [hw, hkept, bind, Except.bind]

/-- What is written in some form is read as it was, and so is what was read and written again. -/
structure ReadsBack (reader : Reader α) (toJson : α → Value) (Written : α → Value → Prop) :
    Prop where
  written (a : α) : Written a (toJson a)
  takes (a : α) (v : Value) : Written a v → reader.Takes v a
  again (a : α) (v : Value) : reader.ofJson? v = some a → reader.Takes (toJson a) a
  again_text (a : α) (isHeld : Bool) (r : Raw) :
    reader.read isHeld r = .ok a → reader.Takes (toJson a) a

theorem readsBack {toJson : α → Value} {Written : α → Value → Prop}
    (written : ∀ a, Written a (toJson a)) (takes : ∀ a v, Written a v → reader.Takes v a) :
    reader.ReadsBack toJson Written where
  written
  takes
  again a _ _ := takes a _ (written a)
  again_text a _ _ _ := takes a _ (written a)

end Reader

end SecretsWarden.Json
