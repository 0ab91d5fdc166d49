import Mathlib.Data.List.Nodup
import SecretsWarden.Proofs.Cluster.ApiServer
import SecretsWarden.Proofs.Injection.Sweep
import SecretsWarden.Proofs.Resource.Definition

/-!
# What the reference server answers about definitions

The definitions of a server are valid and have names of their own. A definition is then found under
its name and only there, a list gives all of them, and a patch changes no other one.
-/

namespace SecretsWarden.Cluster

open Dialogue Json Resource ApiServer

/-- Answers as the reference server does, at any time. -/
def serve (p : Policy) : Answerer ApiServer Request Reply := fun _ s request => s.answer p request

theorem run_serve {α : Type} (p : Policy) (s : ApiServer) (clock : Nat) (request : Request)
    (next : Reply → Session α) :
    Dialogue.run (serve p) clock s (.ask request next) =
      (next (s.answer p request).1).run (serve p) clock (s.answer p request).2 :=
  rfl

/-- Definitions that are valid and have valid names of their own. -/
structure Stocked (definitions : List Value) : Prop where
  valid : ∀ v ∈ definitions, ∃ d name, Definition.ofJson? v = some d ∧ name? v = some name ∧
    IsObjectName name
  distinct : (definitions.map name?).Nodup

/-- Definitions that are kept under valid names of their own, whether or not they can be read. -/
structure Filed (definitions : List Value) : Prop where
  named : ∀ v ∈ definitions, ∃ name, name? v = some name ∧ IsObjectName name
  distinct : (definitions.map name?).Nodup

/-- Names alone decide how definitions are kept. -/
theorem Filed.of_names {before after : List Value} (hfiled : Filed before)
    (h : after.map name? = before.map name?) : Filed after where
  named v hv := by
    have hmem : name? v ∈ before.map name? := h ▸ List.mem_map_of_mem hv
    obtain ⟨w, hw, hname⟩ := List.mem_map.mp hmem
    rw [← hname]
    exact hfiled.named w hw
  distinct := h ▸ hfiled.distinct

/-- There is one definition of a name. -/
theorem Filed.eq_of_name? {definitions : List Value} (hfiled : Filed definitions) {v w : Value}
    (hv : v ∈ definitions) (hw : w ∈ definitions) (hname : name? v = name? w) : v = w :=
  List.inj_on_of_nodup_map hfiled.distinct hv hw hname

theorem Stocked.filed {definitions : List Value} (h : Stocked definitions) :
    Filed definitions where
  named v hv := by
    obtain ⟨_, name, _, hname, hvalid⟩ := h.valid v hv
    exact ⟨name, hname, hvalid⟩
  distinct := h.distinct

namespace ApiServer

variable {p : Policy} {s : ApiServer} {v : Value} {name : String}

/-- Where the definition of a name is kept. -/
def addressOf (name : String) : String := Definition.path ++ "/" ++ name

theorem address?_eq_iff : address? v = some (addressOf name) ↔ name? v = some name := by
  unfold address? addressOf
  rw [Option.map_eq_some_iff]
  constructor
  · rintro ⟨name', hname', heq⟩
    have htoList := congrArg String.toList heq
    simp only [String.toList_append, List.append_cancel_left_eq, String.toList_inj] at htoList
    rw [hname', htoList]
  · intro hname
    exact ⟨name, hname, rfl⟩

theorem addressOf_ne_configAddress (name : String) : addressOf name ≠ configAddress := by
  intro h
  have hpath : SecretsConfig.path.toList <+: (addressOf name).toList := by
    rw [h]
    decide
  rw [addressOf, String.append_assoc] at hpath
  exact path_not_prefix hpath

theorem addressOf_ne_statusAddress (name : String) : addressOf name ≠ statusAddress := by
  intro h
  have hpath : SecretsConfig.path.toList <+: (addressOf name).toList := by
    rw [h]
    decide
  rw [addressOf, String.append_assoc] at hpath
  exact path_not_prefix hpath

theorem addressOf_ne_path (name : String) : addressOf name ≠ Definition.path := by
  intro h
  have hlength := congrArg (fun a => a.toList.length) h
  simp [addressOf, String.toList_append] at hlength

/-- A definition is found under its name. -/
theorem definition?_of_mem (hdistinct : (s.definitions.map name?).Nodup) (hv : v ∈ s.definitions)
    (hname : name? v = some name) : s.definition? (addressOf name) = some v := by
  unfold definition?
  generalize s.definitions = definitions at hdistinct hv
  induction definitions with
  | nil => cases hv
  | cons w rest ih =>
      rw [List.map_cons, List.nodup_cons] at hdistinct
      by_cases hw : name? w = some name
      · rw [List.find?_cons_of_pos (by simpa using address?_eq_iff.mpr hw)]
        -- The first one of that name is the only one.
        rcases List.mem_cons.mp hv with rfl | hv
        · rfl
        · exact absurd (hw.trans hname.symm ▸ List.mem_map_of_mem hv) hdistinct.1
      · rw [List.find?_cons_of_neg (by simpa using fun h => hw (address?_eq_iff.mp h))]
        rcases List.mem_cons.mp hv with rfl | hv
        · exact absurd hname hw
        · exact ih hdistinct.2 hv

theorem mem_of_definition? (h : s.definition? (addressOf name) = some v) :
    v ∈ s.definitions ∧ name? v = some name :=
  ⟨List.mem_of_find?_eq_some h,
    address?_eq_iff.mp (of_decide_eq_true (List.find?_some h : _ = true))⟩

/-! ## Changes -/

/-- The definition at an address is the only one that a change at that address concerns. -/
theorem exists_change (hdistinct : (s.definitions.map name?).Nodup) {address : String}
    (hfound : s.definition? address = some v) (body : Value) :
    ∃ front back, s.definitions = front ++ v :: back ∧ address? v = some address ∧
      s.change address body = { s with definitions := front ++ v.mergePatch body :: back } := by
  obtain ⟨hv, front, back, hsplit, hfront⟩ := List.find?_eq_some_iff_append.mp hfound
  have hv : address? v = some address := of_decide_eq_true hv
  obtain ⟨name, hname, haddress⟩ := Option.map_eq_some_iff.mp hv
  have hfront : ∀ d ∈ front, address? d ≠ some address := by
    intro d hd hthere
    have hnot := hfront d hd
    rw [Bool.not_eq_true', decide_eq_false_iff_not] at hnot
    exact hnot hthere
  have hback : ∀ d ∈ back, address? d ≠ some address := by
    intro d hd hthere
    -- It would have the same name.
    have hsameName : name? d = some name := by
      rw [← address?_eq_iff, hthere, ← haddress, addressOf]
    rw [hsplit, List.map_append, List.map_cons, List.nodup_append, List.nodup_cons] at hdistinct
    apply hdistinct.2.1.1
    rw [hname, ← hsameName]
    exact List.mem_map_of_mem hd
  have hsame : ∀ ds : List Value, (∀ d ∈ ds, address? d ≠ some address) →
      ds.map (fun d => if address? d = some address then d.mergePatch body else d) = ds := by
    intro ds hds
    rw [List.map_congr_left fun d hd => if_neg (hds d hd), List.map_id']
  refine ⟨front, back, hsplit, hv, ?_⟩
  rw [change, hsplit, List.map_append, List.map_cons, if_pos hv, hsame front hfront,
    hsame back hback]

/-- A patch is refused and changes nothing, or it changes the definition as it is stored. -/
theorem patchDefinition_cases (p : Policy) (s : ApiServer) (address : String) (body : Value) :
    ((s.patchDefinition p address body).1.isRefusal = true ∧
        (s.patchDefinition p address body).2 = s) ∨
      ∃ v, s.definition? address = some v ∧
        (s.patchDefinition p address body).2 = s.change address body := by
  unfold patchDefinition
  cases hfound : s.definition? address with
  | none => exact Or.inl ⟨rfl, rfl⟩
  | some v =>
      cases hrefusal : p.refusal address with
      | some refusal => exact Or.inl ⟨refusal.2, rfl⟩
      | none => exact Or.inr ⟨v, rfl, rfl⟩

/-! ## Readings -/

theorem answer_list (p : Policy) (s : ApiServer) :
    s.answer p (.list Definition.path Definition.selectorQuery) =
      (.answered 200 (.json (.object [("items", .array (s.definitions.filter labelled))])), s) := by
  have hpath : Definition.path ≠ configAddress := by decide
  rw [answer_get p s rfl, read]
  simp only [Request.list, if_neg hpath, if_true, selected]

theorem answer_read (p : Policy) (s : ApiServer) (name : String) (query : Option String)
    (body : Option Value) :
    s.answer p ⟨.get, addressOf name, query, body⟩ =
      (found? (s.definition? (addressOf name)), s) := by
  rw [answer_get p s rfl, read]
  simp only [if_neg (addressOf_ne_configAddress name), if_neg (addressOf_ne_path name)]

theorem answer_patch (p : Policy) (s : ApiServer) (name : String) (query : Option String)
    (body : Value) :
    s.answer p ⟨.patch, addressOf name, query, some body⟩ =
      s.patchDefinition p (addressOf name) body := by
  simp only [answer, if_neg (addressOf_ne_statusAddress name)]

/-- The list of the managed definitions reads as these. -/
theorem receive_list {definitions : List Value} {ds : List Definition}
    (h : definitions.mapM Definition.ofJson? = some ds) :
    (Reply.answered 200 (.json (.object [("items", .array definitions)]))).receive
      (listReader Definition.reader) = .ok ds :=
  receive_of_ofJson? h

/-- A list in which one of the definitions cannot be read is not read at all. -/
theorem receive_list_unreadable {definitions : List Value}
    (h : definitions.mapM Definition.ofJson? = none) :
    (Reply.answered 200 (.json (.object [("items", .array definitions)]))).receive
      (listReader Definition.reader) =
        .error (unfit (.object [("items", .array definitions)])) := by
  have hitems : (listReader Definition.reader).ofJson? (.object [("items", .array definitions)]) =
      none := h
  rw [receive_success, hitems]

/-- What was read of a list was read of the definitions in it. -/
theorem mapM_of_receive_list {definitions : List Value} {ds : List Definition}
    (h : (Reply.answered 200 (.json (.object [("items", .array definitions)]))).receive
      (listReader Definition.reader) = .ok ds) :
    definitions.mapM Definition.ofJson? = some ds := by
  cases hread : definitions.mapM Definition.ofJson? with
  | none =>
      rw [receive_list_unreadable hread] at h
      cases h
  | some ds' =>
      rw [receive_list hread] at h
      cases h
      rfl

theorem exists_mapM_ofJson?_iff {definitions : List Value} :
    (∃ ds, definitions.mapM Definition.ofJson? = some ds) ↔
      ∀ v ∈ definitions, ∃ d, Definition.ofJson? v = some d := by
  induction definitions with
  | nil => simp
  | cons v rest ih =>
      simp only [List.mapM_cons, Option.bind_eq_bind, Option.bind_eq_some_iff, List.forall_mem_cons,
        ← ih]
      constructor
      · rintro ⟨_, d, hd, ds, hds, _⟩
        exact ⟨⟨d, hd⟩, ds, hds⟩
      · rintro ⟨⟨d, hd⟩, ds, hds⟩
        exact ⟨d :: ds, d, hd, ds, hds, rfl⟩

theorem exists_of_mem_mapM_ofJson? {definitions : List Value} {ds : List Definition}
    {d : Definition} (h : definitions.mapM Definition.ofJson? = some ds) (hd : d ∈ ds) :
    ∃ v ∈ definitions, Definition.ofJson? v = some d := by
  induction definitions generalizing ds with
  | nil =>
      cases h
      cases hd
  | cons v rest ih =>
      simp only [List.mapM_cons, Option.bind_eq_bind, Option.bind_eq_some_iff] at h
      obtain ⟨d', hd', ds', hds', hcons⟩ := h
      cases hcons
      rcases List.mem_cons.mp hd with rfl | hd
      · exact ⟨v, List.mem_cons_self, hd'⟩
      · obtain ⟨w, hw, hread⟩ := ih hds' hd
        exact ⟨w, List.mem_cons_of_mem _ hw, hread⟩

end ApiServer

end SecretsWarden.Cluster
