import Mathlib.Data.List.Forall2
import SecretsWarden.Proofs.Usage.ExactReport

/-!
# A summary tells stores apart

Whoever is refused an update gets a summary of the stores that are in the way and nothing else to
find them by. The words for a store have no comma in them, so a summary falls into its parts where
the commas are: one for each store that is named, and one more if there are others. The words for a
store in turn have a slash in them only where a namespace ends. So a summary stands for one list of
stores, as far as five of them go, and for one number of the others.
-/

namespace SecretsWarden

namespace Resource.Store

/-! ## The words for a store -/

/-- Neither the name nor the namespace of the store has this character in it. -/
def Lacks (s : Store) (c : Char) : Prop :=
  c ∉ s.metadata.anyName.toList ∧ ∀ space ∈ s.metadata.namespaceName, c ∉ space.toList

/-- Both go by the same words: a kind, a name and, where the kind has them, a namespace. -/
structure SameInWords (a b : Kind × Store) : Prop where
  kind : a.1 = b.1
  space : a.1 = .secretStore → a.2.metadata.namespaceName = b.2.metadata.namespaceName
  name : a.2.metadata.anyName = b.2.metadata.anyName

/-- The namespace that is shown. -/
def shownSpace (k : Kind) (s : Store) : Option String :=
  s.metadata.namespaceName.filter fun _ => k.isNamespaced

theorem shownSpace_secretStore (s : Store) :
    s.shownSpace .secretStore = s.metadata.namespaceName := by
  unfold shownSpace
  cases s.metadata.namespaceName <;> rfl

theorem shownSpace_clusterSecretStore (s : Store) : s.shownSpace .clusterSecretStore = none := by
  unfold shownSpace
  cases s.metadata.namespaceName <;> rfl

theorem sameInWords_iff {k : Kind} {s s' : Store} :
    SameInWords (k, s) (k, s') ↔
      s.shownSpace k = s'.shownSpace k ∧ s.metadata.anyName = s'.metadata.anyName := by
  constructor
  · rintro ⟨-, hspace, hname⟩
    refine ⟨?_, hname⟩
    cases k with
    | secretStore =>
        rw [shownSpace_secretStore, shownSpace_secretStore]
        exact hspace rfl
    | clusterSecretStore => rw [shownSpace_clusterSecretStore, shownSpace_clusterSecretStore]
  · rintro ⟨hspace, hname⟩
    refine ⟨rfl, ?_, hname⟩
    rintro rfl
    rwa [shownSpace_secretStore, shownSpace_secretStore] at hspace

/-- What stands between the quotes: a namespace, if one is shown, and a name. -/
def quoted (space : Option String) (name : String) : List Char :=
  match space with
  | some space => space.toList ++ '/' :: name.toList
  | none => name.toList

theorem toList_inWords (k : Kind) (s : Store) :
    (s.inWords k).toList =
      k.name.toList ++ (' ' :: '\'' :: (quoted (s.shownSpace k) s.metadata.anyName ++ ['\''])) := by
  unfold inWords quoted shownSpace
  cases s.metadata.namespaceName.filter fun _ => k.isNamespaced with
  | none =>
      simp only [String.toList_append, List.append_assoc]
      rfl
  | some space =>
      simp only [String.toList_append, List.append_assoc]
      rfl

/-- A slash stands after a namespace and nowhere else. -/
theorem quoted_inj {space space' : Option String} {name name' : String}
    (hname : '/' ∉ name.toList) (hname' : '/' ∉ name'.toList)
    (hspace : ∀ text ∈ space, '/' ∉ text.toList)
    (h : quoted space name = quoted space' name') : space = space' ∧ name = name' := by
  cases space with
  | none =>
      cases space' with
      | none => exact ⟨rfl, String.toList_inj.mp h⟩
      | some text' =>
          have hslash : '/' ∈ quoted none name := by
            rw [h]
            exact List.mem_append_right _ List.mem_cons_self
          exact absurd hslash hname
  | some text =>
      cases space' with
      | none =>
          have hslash : '/' ∈ quoted none name' := by
            rw [← h]
            exact List.mem_append_right _ List.mem_cons_self
          exact absurd hslash hname'
      | some text' =>
          obtain ⟨htext, _, hnames⟩ :=
            (List.append_cons_inj_of_notMem (hspace text rfl) hname).mp h
          exact ⟨congrArg some (String.toList_inj.mp htext), String.toList_inj.mp hnames⟩

/-- The words begin with the kind, and no kind begins like the other. -/
theorem kind_of_inWords {k k' : Kind} {s s' : Store} (h : s.inWords k = s'.inWords k') :
    k = k' := by
  have hhead := congrArg (fun text : String => text.toList.head?) h
  simp only [toList_inWords] at hhead
  cases k with
  | secretStore =>
      cases k' with
      | secretStore => rfl
      | clusterSecretStore => cases hhead
  | clusterSecretStore =>
      cases k' with
      | secretStore => cases hhead
      | clusterSecretStore => rfl

/-- **The words for a store are about one store only,** where names have no slash. -/
theorem inWords_eq_iff {a b : Kind × Store} (ha : a.2.Lacks '/') (hb : b.2.Lacks '/') :
    a.2.inWords a.1 = b.2.inWords b.1 ↔ SameInWords a b := by
  obtain ⟨k, s⟩ := a
  obtain ⟨k', s'⟩ := b
  constructor
  · intro h
    obtain rfl := kind_of_inWords h
    have hquoted := congrArg String.toList h
    rw [toList_inWords, toList_inWords] at hquoted
    have hsame : quoted (s.shownSpace k) s.metadata.anyName =
        quoted (s'.shownSpace k) s'.metadata.anyName := by
      have hrest := List.append_cancel_left hquoted
      exact List.append_cancel_right (List.cons.inj (List.cons.inj hrest).2).2
    have hspace : ∀ text ∈ s.shownSpace k, '/' ∉ text.toList :=
      fun text htext => ha.2 text (Option.mem_filter_iff.mp htext).1
    exact sameInWords_iff.mpr (quoted_inj ha.1 hb.1 hspace hsame)
  · intro h
    obtain rfl : k = k' := h.kind
    obtain ⟨hspace, hname⟩ := sameInWords_iff.mp h
    show s.inWords k = s'.inWords k
    rw [← String.toList_inj, toList_inWords, toList_inWords, hspace, hname]

/-- There are commas in the words for a store only if there are in its names. -/
theorem comma_not_mem_inWords {k : Kind} {s : Store} (h : s.Lacks ',') :
    ',' ∉ (s.inWords k).toList := by
  have hkind : ',' ∉ k.name.toList := by cases k <;> decide
  have hquoted : ',' ∉ quoted (s.shownSpace k) s.metadata.anyName := by
    cases hspace : s.shownSpace k with
    | none => exact h.1
    | some space =>
        have hfree := h.2 space (Option.mem_filter_iff.mp hspace).1
        simp [quoted, hfree, h.1]
  rw [toList_inWords]
  simp [hkind, hquoted]

end Resource.Store

namespace Usage

open Resource Resource.Store

/-! ## The parts of a summary -/

/-- The words for some stores, all but the first after a blank. -/
def spaced : List String → List String
  | [] => []
  | first :: rest => first :: rest.map (" " ++ ·)

/-- What is said about the stores that are not named. -/
def hidden (stores : Nat) : List String :=
  if 5 < stores then [s!" and {stores - 5} more"] else []

theorem length_spaced (words : List String) : (spaced words).length = words.length := by
  cases words with
  | nil => rfl
  | cons first rest => simp [spaced]

theorem spaced_inj {words words' : List String} (h : spaced words = spaced words') :
    words = words' := by
  cases words with
  | nil =>
      cases words' with
      | nil => rfl
      | cons first' rest' => cases h
  | cons first rest =>
      cases words' with
      | nil => cases h
      | cons first' rest' =>
          obtain ⟨hfirst, hrest⟩ := List.cons.inj h
          have hblank : Function.Injective (" " ++ · : String → String) :=
            fun a b hab => (String.append_right_inj " ").mp hab
          rw [hfirst, List.map_injective_iff.mpr hblank hrest]

theorem intercalate_spaced (words : List String) :
    ",".intercalate (spaced words) = ", ".intercalate words := by
  cases words with
  | nil => rfl
  | cons first rest =>
      rw [spaced]
      induction rest generalizing first with
      | nil => rw [List.map_nil, String.intercalate_singleton, String.intercalate_singleton]
      | cons next rest ih =>
          have hcomma : ", " = "," ++ " " := rfl
          rw [List.map_cons, String.intercalate_cons_cons, String.intercalate_cons_cons,
            String.intercalate_cons_append, ih next, hcomma]
          simp only [String.append_assoc]

/-- A summary is put together from its parts by commas. -/
theorem summarize_eq_intercalate {words : List String} (h : words ≠ []) :
    summarize words = ",".intercalate (spaced (words.take 5) ++ hidden words.length) := by
  rw [summarize_eq, hidden]
  split
  · have hnamed : spaced (words.take 5) ≠ [] := by
      cases words with
      | nil => exact absurd rfl h
      | cons first rest => exact List.cons_ne_nil _ _
    have hcomma : toString ", and " = "," ++ toString " and " := rfl
    rw [String.intercalate_append_of_ne_nil hnamed (List.cons_ne_nil _ _),
      String.intercalate_singleton, intercalate_spaced, hcomma]
    simp only [String.append_assoc]
  · rw [List.append_nil, intercalate_spaced, String.append_empty]

/-- Parts without commas can be told from what commas make of them. -/
theorem intercalate_comma_inj {parts parts' : List String} (hne : parts ≠ []) (hne' : parts' ≠ [])
    (h : ∀ part ∈ parts, ',' ∉ part.toList) (h' : ∀ part ∈ parts', ',' ∉ part.toList)
    (heq : ",".intercalate parts = ",".intercalate parts') : parts = parts' := by
  have hsplit := String.toList_split_intercalate h
  have hsplit' := String.toList_split_intercalate h'
  rw [if_neg hne] at hsplit
  rw [if_neg hne'] at hsplit'
  rw [← hsplit, ← hsplit']
  exact congrArg (fun text : String => (text.split ',').toList.map (·.copy)) heq

/-- A number is determined by its digits. -/
theorem eq_of_more_eq {n m : Nat} (h : s!" and {n} more" = s!" and {m} more") : n = m := by
  have hrepr : n.repr = m.repr :=
    (String.append_right_inj _).mp ((String.append_left_inj _).mp h)
  have hdigits : Nat.toDigits 10 n = Nat.toDigits 10 m := by
    rw [← Nat.toList_repr, ← Nat.toList_repr, hrepr]
  calc n = Nat.ofDigitChars 10 (Nat.toDigits 10 n) 0 := Nat.ofDigitChars_ten_toDigits.symm
    _ = Nat.ofDigitChars 10 (Nat.toDigits 10 m) 0 := by rw [hdigits]
    _ = m := Nat.ofDigitChars_ten_toDigits

theorem length_hidden (stores : Nat) :
    (hidden stores).length = if 5 < stores then 1 else 0 := by
  unfold hidden
  split <;> rfl

theorem hidden_inj {stores stores' : Nat} (h : 5 < stores) (h' : 5 < stores')
    (heq : hidden stores = hidden stores') : stores = stores' := by
  unfold hidden at heq
  rw [if_pos h, if_pos h'] at heq
  have hothers := eq_of_more_eq (List.cons.inj heq).1
  omega

theorem comma_not_mem_hidden (stores : Nat) : ∀ part ∈ hidden stores, ',' ∉ part.toList := by
  have hdigits : ',' ∉ (stores - 5).repr.toList := by
    intro hcomma
    rw [Nat.toList_repr] at hcomma
    exact absurd (Nat.isDigit_of_mem_toDigits (by decide) (by decide) hcomma) (by decide)
  intro part hpart
  unfold hidden at hpart
  split at hpart
  · rw [List.mem_singleton.mp hpart]
    simp only [String.toList_append, List.mem_append, not_or]
    exact ⟨⟨by decide, hdigits⟩, by decide⟩
  · exact absurd hpart List.not_mem_nil

theorem comma_not_mem_spaced {words : List String} (h : ∀ word ∈ words, ',' ∉ word.toList) :
    ∀ part ∈ spaced words, ',' ∉ part.toList := by
  cases words with
  | nil => exact h
  | cons first rest =>
      obtain ⟨hfirst, hrest⟩ := List.forall_mem_cons.mp h
      refine List.forall_mem_cons.mpr ⟨hfirst, ?_⟩
      rintro _ hpart
      obtain ⟨word, hword, rfl⟩ := List.mem_map.mp hpart
      rw [String.toList_append, List.mem_append, not_or]
      exact ⟨by decide, hrest word hword⟩

/-- Equal parts come from the same words, as far as these are there, and from as many of them. -/
theorem parts_inj {words words' : List String}
    (h : spaced (words.take 5) ++ hidden words.length =
      spaced (words'.take 5) ++ hidden words'.length) :
    words.take 5 = words'.take 5 ∧ words.length = words'.length := by
  have hlength := congrArg List.length h
  simp only [List.length_append, length_spaced, List.length_take, length_hidden] at hlength
  have hnamed : (spaced (words.take 5)).length = (spaced (words'.take 5)).length := by
    simp only [length_spaced, List.length_take]
    split at hlength <;> split at hlength <;> omega
  obtain ⟨htake, hhidden⟩ := List.append_inj h hnamed
  refine ⟨spaced_inj htake, ?_⟩
  by_cases hmany : 5 < words.length
  · have hmany' : 5 < words'.length := by
      split at hlength <;> split at hlength <;> omega
    exact hidden_inj hmany hmany' hhidden
  · split at hlength <;> split at hlength <;> omega

/-- Words without commas have the same summary exactly if they begin with the same five and are as
many. -/
theorem summarize_eq_iff {words words' : List String}
    (hne : ∀ word ∈ words, word ≠ "") (hne' : ∀ word ∈ words', word ≠ "")
    (h : ∀ word ∈ words, ',' ∉ word.toList) (h' : ∀ word ∈ words', ',' ∉ word.toList) :
    summarize words = summarize words' ↔
      words.take 5 = words'.take 5 ∧ words.length = words'.length := by
  have hfree : ∀ words : List String, (∀ word ∈ words, ',' ∉ word.toList) →
      ∀ part ∈ spaced (words.take 5) ++ hidden words.length, ',' ∉ part.toList := by
    intro words h
    rw [List.forall_mem_append]
    exact ⟨comma_not_mem_spaced fun word hword => h word (List.mem_of_mem_take hword),
      comma_not_mem_hidden _⟩
  have hparts : ∀ words : List String, words ≠ [] →
      spaced (words.take 5) ++ hidden words.length ≠ [] := by
    intro words hsome hnone
    obtain ⟨first, rest, rfl⟩ := List.exists_cons_of_ne_nil hsome
    cases hnone
  constructor
  · intro heq
    by_cases hnil : words = []
    · have hnil' : words' = [] := by
        by_contra hsome
        apply (summarize_ne_empty hne').mpr hsome
        rw [← heq, hnil]
        rfl
      rw [hnil, hnil']
      exact ⟨rfl, rfl⟩
    · have hnil' : words' ≠ [] := by
        rintro rfl
        exact (summarize_ne_empty hne).mpr hnil heq
      rw [summarize_eq_intercalate hnil, summarize_eq_intercalate hnil'] at heq
      exact parts_inj (intercalate_comma_inj (hparts words hnil) (hparts words' hnil')
        (hfree words h) (hfree words' h') heq)
  · rintro ⟨htake, hlength⟩
    rw [summarize_eq, summarize_eq, hlength, htake]

/-! ## Summaries of stores -/

/-- The summary of some stores, each with its kind. -/
def summaryOf (stores : List (Store.Kind × Store)) : String :=
  summarize (stores.map fun p => p.2.inWords p.1)

theorem map_inWords_eq_iff {stores stores' : List (Store.Kind × Store)}
    (h : ∀ p ∈ stores, p.2.Lacks '/') (h' : ∀ p ∈ stores', p.2.Lacks '/') :
    (stores.map fun p => p.2.inWords p.1) = (stores'.map fun p => p.2.inWords p.1) ↔
      List.Forall₂ SameInWords stores stores' := by
  induction stores generalizing stores' with
  | nil =>
      cases stores' with
      | nil => exact iff_of_true rfl .nil
      | cons first' rest' => exact iff_of_false (List.cons_ne_nil _ _).symm (by rintro ⟨⟩)
  | cons first rest ih =>
      cases stores' with
      | nil => exact iff_of_false (List.cons_ne_nil _ _) (by rintro ⟨⟩)
      | cons first' rest' =>
          obtain ⟨hfirst, hrest⟩ := List.forall_mem_cons.mp h
          obtain ⟨hfirst', hrest'⟩ := List.forall_mem_cons.mp h'
          rw [List.map_cons, List.map_cons, List.cons.injEq, inWords_eq_iff hfirst hfirst',
            ih hrest hrest', List.forall₂_cons]

/-- **A summary tells stores apart.** Whatever the stores are, if there is neither a slash nor a
comma in their names and namespaces, quotes or not, two lists of them have the same summary exactly
if they are of the same length and their first five elements go by the same words, one by one: the
kind, the name, and of a store with a namespace the namespace. So up to five stores are known from
their summary, and of more than five the number of those that are not named. -/
theorem summary_tells_apart {stores stores' : List (Store.Kind × Store)}
    (h : ∀ p ∈ stores, p.2.Lacks '/' ∧ p.2.Lacks ',')
    (h' : ∀ p ∈ stores', p.2.Lacks '/' ∧ p.2.Lacks ',') :
    (summaryOf stores = summaryOf stores' ↔
      stores.length = stores'.length ∧
        List.Forall₂ SameInWords (stores.take 5) (stores'.take 5)) ∧
    (summaryOf stores = summaryOf stores' → stores.length ≤ 5 →
      List.Forall₂ SameInWords stores stores') := by
  have hwords : ∀ stores : List (Store.Kind × Store), (∀ p ∈ stores, p.2.Lacks ',') →
      ∀ word ∈ stores.map fun p => p.2.inWords p.1, word ≠ "" ∧ ',' ∉ word.toList := by
    intro stores h word hword
    obtain ⟨p, hp, rfl⟩ := List.mem_map.mp hword
    exact ⟨inWords_ne_empty p.1 p.2, comma_not_mem_inWords (h p hp)⟩
  have hiff : summaryOf stores = summaryOf stores' ↔
      stores.length = stores'.length ∧
        List.Forall₂ SameInWords (stores.take 5) (stores'.take 5) := by
    have hleft := hwords stores fun p hp => (h p hp).2
    have hright := hwords stores' fun p hp => (h' p hp).2
    rw [summaryOf, summaryOf, summarize_eq_iff (fun word hword => (hleft word hword).1)
      (fun word hword => (hright word hword).1) (fun word hword => (hleft word hword).2)
      (fun word hword => (hright word hword).2), List.length_map, List.length_map,
      ← List.map_take, ← List.map_take,
      map_inWords_eq_iff (fun p hp => (h p (List.mem_of_mem_take hp)).1)
        (fun p hp => (h' p (List.mem_of_mem_take hp)).1), and_comm]
  refine ⟨hiff, fun heq hfew => ?_⟩
  obtain ⟨hlength, hsame⟩ := hiff.mp heq
  rwa [List.take_of_length_le hfew, List.take_of_length_le (hlength ▸ hfew)] at hsame

/-- A store with this namespace and this name, of which nothing else is known. -/
def storeNamed (space : Option String) (name : String) : Store where
  metadata := { name := some name, namespaceName := space }
  content := .null

/-- Six stores, one of them of the kind without namespaces. -/
def sixStores (space : Option String) (last : String) : List (Store.Kind × Store) :=
  [(.secretStore, storeNamed (some "team-a") "vault"),
    (.clusterSecretStore, storeNamed space "vault"),
    (.secretStore, storeNamed none "vault"),
    (.secretStore, storeNamed (some "") "it's"),
    (.clusterSecretStore, storeNamed none "Store 'vault"),
    (.secretStore, storeNamed (some "team-b") last)]

/-- Two lists of six stores with one summary differ in a namespace that is not shown and in a store
that is not named. -/
theorem same_summary_of_six_stores :
    summaryOf (sixStores none "first") = summaryOf (sixStores (some "team-a") "last") ∧
      (sixStores none "first").length = (sixStores (some "team-a") "last").length ∧
      List.Forall₂ SameInWords ((sixStores none "first").take 5)
        ((sixStores (some "team-a") "last").take 5) := by
  have h : ∀ p ∈ sixStores none "first", p.2.Lacks '/' ∧ p.2.Lacks ',' := by
    simp [sixStores, storeNamed, Lacks, Meta.anyName]
  have h' : ∀ p ∈ sixStores (some "team-a") "last", p.2.Lacks '/' ∧ p.2.Lacks ',' := by
    simp [sixStores, storeNamed, Lacks, Meta.anyName]
  have heq : summaryOf (sixStores none "first") = summaryOf (sixStores (some "team-a") "last") :=
    rfl
  exact ⟨heq, (summary_tells_apart h h').1.mp heq⟩

end Usage

end SecretsWarden
