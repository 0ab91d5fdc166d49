import Mathlib.Data.List.TakeWhile
import SecretsWarden.Cluster.Request

/-!
# Addresses of named objects

A name becomes part of an address as it is, so it decides where the path ends; but whatever the
name, the path begins with the one that the name was put under.
-/

namespace SecretsWarden.Cluster

/-- Characters of which a path may consist. -/
def IsPathText (text : String) : Prop :=
  ∀ c ∈ text.toList, isPathChar c = true ∧ c ≠ '#' ∧ c ≠ '?'

instance (text : String) : Decidable (IsPathText text) := List.decidableBAll _ _

/-- Characters of which a query may consist. -/
def IsQueryText (text : String) : Prop := ∀ c ∈ text.toList, isQueryChar c = true ∧ c ≠ '#'

instance (text : String) : Decidable (IsQueryText text) := List.decidableBAll _ _

theorem path_splitAddress {path rest : String} (hpath : IsPathText path) {shown : String}
    {query : Option String} (h : splitAddress (path ++ rest) = .ok (shown, query)) :
    path.toList <+: shown.toList := by
  have hshown : shown = String.ofList
      (((path ++ rest).toList.takeWhile (· != '#')).takeWhile (· != '?')) := by
    unfold splitAddress at h
    simp only at h
    split at h
    · cases h
    · split at h
      · split at h <;> cases h <;> rfl
      · cases h
  rw [hshown, String.toList_ofList, String.toList_append,
    List.takeWhile_append_of_pos (by simpa using fun c hc => (hpath c hc).2.1),
    List.takeWhile_append_of_pos (by simpa using fun c hc => (hpath c hc).2.2)]
  exact List.prefix_append _ _

variable {method : Method} {path name rest : String} {body : Option Json.Value}
  {request : Request}

theorem splitAddress_of_named (h : Request.named method path name rest body = .ok request) :
    splitAddress (path ++ "/" ++ name ++ rest) = .ok (request.path, request.query) ∧
      request.method = method ∧ request.body = body := by
  unfold Request.named at h
  split at h
  · cases h
  · split at h
    · cases h
      exact ⟨‹_›, rfl, rfl⟩
    · cases h

theorem method_of_named (h : Request.named method path name rest body = .ok request) :
    request.method = method :=
  (splitAddress_of_named h).2.1

theorem body_of_named (h : Request.named method path name rest body = .ok request) :
    request.body = body :=
  (splitAddress_of_named h).2.2

/-- A request is not built for a fault of its own only. -/
theorem unbuildable_of_named {e : Error}
    (h : Request.named method path name rest body = .error e) :
    ∃ fault, e = .unbuildable fault := by
  unfold Request.named at h
  split at h
  · cases h
    exact ⟨_, rfl⟩
  · split at h
    · cases h
    · cases h
      exact ⟨_, rfl⟩

/-- A request that cannot be built meets no conflict. -/
theorem isConflict_of_named {e : Error} (h : Request.named method path name rest body = .error e) :
    e.isConflict = false := by
  obtain ⟨_, rfl⟩ := unbuildable_of_named h
  rfl

theorem prefix_of_named (h : Request.named method path name rest body = .ok request)
    (hpath : IsPathText path) : path.toList <+: request.path.toList := by
  have hsplit := (splitAddress_of_named h).1
  rw [String.append_assoc, String.append_assoc] at hsplit
  exact path_splitAddress hpath hsplit

/-! ## Valid names -/

/-- Characters of which the name of an object consists: lower case letters, digits, hyphens and
dots. -/
def isNameChar (c : Char) : Bool :=
  ('a' ≤ c && c ≤ 'z') || ('0' ≤ c && c ≤ '9') || c = '-' || c = '.'

/-- The name of an object. -/
structure IsObjectName (name : String) : Prop where
  nonempty : name.isEmpty = false
  short : name.utf8ByteSize ≤ 253
  chars : name.toList.all isNameChar = true

instance (name : String) : Decidable (IsObjectName name) :=
  decidable_of_iff
    (name.isEmpty = false ∧ name.utf8ByteSize ≤ 253 ∧ name.toList.all isNameChar = true)
    ⟨fun ⟨h₁, h₂, h₃⟩ => ⟨h₁, h₂, h₃⟩, fun ⟨h₁, h₂, h₃⟩ => ⟨h₁, h₂, h₃⟩⟩

theorem IsPathText.append {a b : String} (ha : IsPathText a) (hb : IsPathText b) :
    IsPathText (a ++ b) := by
  intro c hc
  rw [String.toList_append] at hc
  rcases List.mem_append.mp hc with hc | hc
  · exact ha c hc
  · exact hb c hc

theorem IsObjectName.isPathText {name : String} (h : IsObjectName name) : IsPathText name := by
  intro c hc
  have hchar := List.all_eq_true.mp h.chars c hc
  -- Both sides are ranges of code points.
  simp only [isNameChar, isPathChar, Char.le_def, UInt32.le_iff_toNat_le, Bool.decide_or, ne_eq,
    Char.ext_iff, ← UInt32.toNat_inj] at hchar ⊢
  simp at hchar ⊢
  omega

/-- An address that shows a path, and then nothing or a query, is split there. -/
theorem splitAddress_eq {address : String} {path query : List Char}
    (hshown : address.toList.takeWhile (· != '#') = path ++ query)
    (hpath : ∀ c ∈ path, isPathChar c = true ∧ c ≠ '?')
    (hquery : query.all isQueryChar = true) (hstart : query.head?.all (· = '?') = true)
    (hshort : address.utf8ByteSize ≤ longestAddress) :
    splitAddress address = .ok (String.ofList path, query.tail?.map String.ofList) := by
  have hmark : ∀ c ∈ path, (c != '?') = true := fun c hc => bne_iff_ne.mpr (hpath c hc).2
  have htake : (path ++ query).takeWhile (· != '?') = path := by
    rw [List.takeWhile_append_of_pos hmark]
    cases query with
    | nil => exact List.append_nil path
    | cons c rest =>
        have hc : c = '?' := by simpa using hstart
        rw [List.takeWhile_cons_of_neg (by simp [hc]), List.append_nil]
  have hdrop : (path ++ query).dropWhile (· != '?') = query := by
    rw [List.dropWhile_append_of_pos hmark]
    cases query with
    | nil => rfl
    | cons c rest =>
        have hc : c = '?' := by simpa using hstart
        rw [List.dropWhile_cons_of_neg (by simp [hc])]
  have hall : path.all isPathChar = true := List.all_eq_true.mpr fun c hc => (hpath c hc).1
  unfold splitAddress
  simp only [hshown, htake, hdrop, if_neg (Nat.not_lt.mpr hshort), hall, hquery, and_self, if_true]
  cases query <;> rfl

/-- An address without a query is a path. -/
theorem splitAddress_path {path : String} (hpath : IsPathText path)
    (hshort : path.utf8ByteSize ≤ longestAddress) : splitAddress path = .ok (path, none) := by
  have hshown : path.toList.takeWhile (· != '#') = path.toList ++ [] := by
    rw [List.takeWhile_eq_self_iff.mpr fun c hc => bne_iff_ne.mpr (hpath c hc).2.1,
      List.append_nil]
  rw [splitAddress_eq hshown (fun c hc => ⟨(hpath c hc).1, (hpath c hc).2.2⟩) rfl rfl hshort,
    String.ofList_toList]
  rfl

/-- A question mark starts the query of an address. -/
theorem splitAddress_query {path query : String} (hpath : IsPathText path)
    (hquery : IsQueryText query)
    (hshort : (path ++ "?" ++ query).utf8ByteSize ≤ longestAddress) :
    splitAddress (path ++ "?" ++ query) = .ok (path, some query) := by
  have hshown : (path ++ "?" ++ query).toList.takeWhile (· != '#') =
      path.toList ++ '?' :: query.toList := by
    have htoList : (path ++ "?" ++ query).toList = path.toList ++ '?' :: query.toList := by
      simp [String.toList_append]
    rw [htoList]
    refine List.takeWhile_eq_self_iff.mpr fun c hc => bne_iff_ne.mpr ?_
    rcases List.mem_append.mp hc with hc | hc
    · exact (hpath c hc).2.1
    · rcases List.mem_cons.mp hc with rfl | hc
      · decide
      · exact (hquery c hc).2
  have hchars : ('?' :: query.toList).all isQueryChar = true := by
    rw [List.all_cons, Bool.and_eq_true]
    exact ⟨by decide, List.all_eq_true.mpr fun c hc => (hquery c hc).1⟩
  rw [splitAddress_eq hshown (fun c hc => ⟨(hpath c hc).1, (hpath c hc).2.2⟩) hchars rfl hshort,
    String.ofList_toList, List.tail?_cons, Option.map_some, String.ofList_toList]

/-! ## Requests for valid names -/

/-- An object with a valid name is read at its address. -/
theorem read_eq {path name : String} (hpath : IsPathText (path ++ "/"))
    (hsize : (path ++ "/").utf8ByteSize ≤ 1000) (hname : IsObjectName name) :
    Request.read path name = .ok ⟨.get, path ++ "/" ++ name, none, none⟩ := by
  have hshort : (path ++ "/" ++ name).utf8ByteSize ≤ longestAddress := by
    have := hname.short
    rw [String.utf8ByteSize_append, longestAddress]
    omega
  unfold Request.read Request.named
  rw [hname.nonempty, if_neg Bool.false_ne_true, String.append_empty,
    splitAddress_path (hpath.append hname.isPathText) hshort]

/-- A request with a query for something under an object with a valid name goes to its address. -/
theorem named_below_eq {path name below query : String} (hpath : IsPathText (path ++ "/"))
    (hsize : (path ++ "/").utf8ByteSize ≤ 1000) (hname : IsObjectName name)
    (hbelow : IsPathText below) (hsize' : below.utf8ByteSize ≤ 1000) (hquery : IsQueryText query)
    (hsize'' : query.utf8ByteSize ≤ 1000) (method : Method) (body : Option Json.Value) :
    Request.named method path name (below ++ "?" ++ query) body =
      .ok ⟨method, path ++ "/" ++ name ++ below, some query, body⟩ := by
  have hshort : (path ++ "/" ++ name ++ below ++ "?" ++ query).utf8ByteSize ≤ longestAddress := by
    have := hname.short
    have hmark : "?".utf8ByteSize = 1 := rfl
    rw [String.utf8ByteSize_append, String.utf8ByteSize_append, String.utf8ByteSize_append,
      String.utf8ByteSize_append, hmark, longestAddress]
    omega
  unfold Request.named
  rw [hname.nonempty, if_neg Bool.false_ne_true, ← String.append_assoc, ← String.append_assoc,
    splitAddress_query ((hpath.append hname.isPathText).append hbelow) hquery hshort]

/-- A request with a query for an object with a valid name goes to its address. -/
theorem named_query_eq {path name query : String} (hpath : IsPathText (path ++ "/"))
    (hsize : (path ++ "/").utf8ByteSize ≤ 1000) (hname : IsObjectName name)
    (hquery : IsQueryText query)
    (hsize' : query.utf8ByteSize ≤ 1000) (method : Method) (body : Option Json.Value) :
    Request.named method path name ("?" ++ query) body =
      .ok ⟨method, path ++ "/" ++ name, some query, body⟩ := by
  have h : Request.named method path name ("" ++ "?" ++ query) body =
      .ok ⟨method, path ++ "/" ++ name ++ "", some query, body⟩ :=
    named_below_eq hpath hsize hname (by decide) (by decide) hquery hsize' method body
  rwa [String.empty_append, String.append_empty] at h

end SecretsWarden.Cluster
