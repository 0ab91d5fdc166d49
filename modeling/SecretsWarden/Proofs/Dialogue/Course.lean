import SecretsWarden.Dialogue.Run

/-!
# Courses of a dialogue

A course is what happens in a dialogue from one point of it to a later one: which question got
which answer, and which pauses were made. The relations `Ends` and `Leads` say which courses a
dialogue can take, whatever is answered, to its end and to some point before it. Every run takes
a course to the end (`ends_run`), so what is proved of all courses holds of every run, whoever
answers.
-/

namespace SecretsWarden.Dialogue

variable {q r α β σ : Type}

/-- One thing that happens in a dialogue. -/
inductive Event (q r : Type) where
  | asked (question : q) (answer : r)
  | paused (time : Duration)

/-- What happens in a dialogue, in order. -/
abbrev Course (q r : Type) := List (Event q r)

/-- The questions of a course, each with its answer. -/
def exchanges : Course q r → List (q × r)
  | [] => []
  | .asked question answer :: rest => (question, answer) :: exchanges rest
  | .paused _ :: rest => exchanges rest

/-- The pauses of a course. -/
def pauses : Course q r → List Duration
  | [] => []
  | .asked _ _ :: rest => pauses rest
  | .paused time :: rest => time :: pauses rest

/-- The dialogue can take this course to its end, and then has this outcome. -/
inductive Ends : Dialogue q r α → Course q r → Except Duration.Fault α → Prop where
  | done (a : α) : Ends (done a) [] (.ok a)
  | ask {question : q} {next : r → Dialogue q r α} {answer : r} {course : Course q r}
      {outcome : Except Duration.Fault α} (h : Ends (next answer) course outcome) :
      Ends (ask question next) (.asked question answer :: course) outcome
  | pause {time : Duration} {next : Dialogue q r α} {course : Course q r}
      {outcome : Except Duration.Fault α} (h : Ends next course outcome) :
      Ends (pause time next) (.paused time :: course) outcome
  | abort (fault : Duration.Fault) : Ends (abort fault) [] (.error fault)

/-- The dialogue can take this course, and then the other dialogue is left. -/
inductive Leads : Dialogue q r α → Course q r → Dialogue q r α → Prop where
  | stay (d : Dialogue q r α) : Leads d [] d
  | ask {question : q} {next : r → Dialogue q r α} {answer : r} {course : Course q r}
      {left : Dialogue q r α} (h : Leads (next answer) course left) :
      Leads (ask question next) (.asked question answer :: course) left
  | pause {time : Duration} {next : Dialogue q r α} {course : Course q r}
      {left : Dialogue q r α} (h : Leads next course left) :
      Leads (pause time next) (.paused time :: course) left

/-- The course that a run takes. -/
def course (answer : Answerer σ q r) (clock : Nat) (state : σ) : Dialogue q r α → Course q r
  | done _ => []
  | ask question next =>
    let (reply, state) := answer clock state question
    .asked question reply :: (next reply).course answer clock state
  | pause time next => .paused time :: next.course answer (clock + pauseMillis time) state
  | abort _ => []

/-- The value of a dialogue that is done. -/
def value? : Dialogue q r α → Option α
  | done a => some a
  | ask _ _ | pause _ _ | abort _ => none

theorem eq_done_of_value? {d : Dialogue q r α} {a : α} (h : d.value? = some a) : d = done a := by
  cases d <;> cases h
  rfl

/-! ## Exchanges and pauses -/

@[simp] theorem exchanges_append (c₁ c₂ : Course q r) :
    exchanges (c₁ ++ c₂) = exchanges c₁ ++ exchanges c₂ := by
  induction c₁ with
  | nil => rfl
  | cons e rest ih => cases e <;> simp [exchanges, ih]

@[simp] theorem pauses_append (c₁ c₂ : Course q r) :
    pauses (c₁ ++ c₂) = pauses c₁ ++ pauses c₂ := by
  induction c₁ with
  | nil => rfl
  | cons e rest ih => cases e <;> simp [pauses, ih]

theorem mem_exchanges {c : Course q r} {question : q} {answer : r} :
    (question, answer) ∈ exchanges c ↔ .asked question answer ∈ c := by
  induction c with
  | nil => simp [exchanges]
  | cons e rest ih => cases e <;> simp [exchanges, ih]

/-- What happens after a first part of a course happens in the second. -/
theorem split_of_not_mem {c c₁ c₂ after : Course q r} {e : Event q r}
    (h : c ++ e :: after = c₁ ++ c₂) (hnot : e ∉ c₁) :
    ∃ before, c = c₁ ++ before ∧ c₂ = before ++ e :: after := by
  rcases List.append_eq_append_iff.mp h with ⟨more, rfl, hmore⟩ | ⟨more, hfirst, hmore⟩
  · cases more with
    | nil => exact ⟨[], by simp, hmore.symm⟩
    | cons e' more =>
        cases hmore
        exact absurd (List.mem_append_right _ List.mem_cons_self) hnot
  · exact ⟨more, hfirst, hmore⟩

/-! ## Courses to the end -/

@[simp] theorem ends_done {a : α} {c : Course q r} {out : Except Duration.Fault α} :
    Ends (done a) c out ↔ c = [] ∧ out = .ok a := by
  constructor
  · rintro ⟨⟩
    exact ⟨rfl, rfl⟩
  · rintro ⟨rfl, rfl⟩
    exact .done a

@[simp] theorem ends_ask {question : q} {next : r → Dialogue q r α} {c : Course q r}
    {out : Except Duration.Fault α} :
    Ends (ask question next) c out ↔
      ∃ answer rest, c = .asked question answer :: rest ∧ Ends (next answer) rest out := by
  constructor
  · rintro ⟨⟩
    exact ⟨_, _, rfl, ‹_›⟩
  · rintro ⟨answer, rest, rfl, h⟩
    exact .ask h

@[simp] theorem ends_pause {time : Duration} {next : Dialogue q r α} {c : Course q r}
    {out : Except Duration.Fault α} :
    Ends (pause time next) c out ↔ ∃ rest, c = .paused time :: rest ∧ Ends next rest out := by
  constructor
  · rintro ⟨⟩
    exact ⟨_, rfl, ‹_›⟩
  · rintro ⟨rest, rfl, h⟩
    exact .pause h

@[simp] theorem ends_abort {fault : Duration.Fault} {c : Course q r}
    {out : Except Duration.Fault α} :
    Ends (abort fault) c out ↔ c = [] ∧ out = .error fault := by
  constructor
  · rintro ⟨⟩
    exact ⟨rfl, rfl⟩
  · rintro ⟨rfl, rfl⟩
    exact .abort fault

/-- The course of a dialogue that goes on with a value falls into two, unless the first part
breaks off. -/
theorem ends_bind {x : Dialogue q r α} {k : α → Dialogue q r β} {c : Course q r}
    {out : Except Duration.Fault β} :
    Ends (x.bind k) c out ↔
      (∃ a c₁ c₂, c = c₁ ++ c₂ ∧ Ends x c₁ (.ok a) ∧ Ends (k a) c₂ out) ∨
        ∃ fault, out = .error fault ∧ Ends x c (.error fault) := by
  induction x generalizing c with
  | done a =>
      constructor
      · intro h
        exact Or.inl ⟨a, [], c, rfl, .done a, h⟩
      · rintro (⟨a', c₁, c₂, rfl, h₁, h₂⟩ | ⟨fault, rfl, h⟩)
        · obtain ⟨rfl, h₁⟩ := ends_done.mp h₁
          cases h₁
          exact h₂
        · simp at h
  | ask question next ih =>
      simp only [bind, ends_ask]
      constructor
      · rintro ⟨answer, rest, rfl, h⟩
        rcases (ih answer).mp h with ⟨a, c₁, c₂, rfl, h₁, h₂⟩ | ⟨fault, rfl, hx⟩
        · exact Or.inl ⟨a, _, c₂, rfl, ⟨answer, c₁, rfl, h₁⟩, h₂⟩
        · exact Or.inr ⟨fault, rfl, answer, rest, rfl, hx⟩
      · rintro (⟨a, _, c₂, rfl, ⟨answer, c₁, rfl, h₁⟩, h₂⟩ | ⟨fault, rfl, answer, rest, rfl, h⟩)
        · exact ⟨answer, c₁ ++ c₂, rfl, (ih answer).mpr (Or.inl ⟨a, c₁, c₂, rfl, h₁, h₂⟩)⟩
        · exact ⟨answer, rest, rfl, (ih answer).mpr (Or.inr ⟨fault, rfl, h⟩)⟩
  | pause time next ih =>
      simp only [bind, ends_pause]
      constructor
      · rintro ⟨rest, rfl, h⟩
        rcases ih.mp h with ⟨a, c₁, c₂, rfl, h₁, h₂⟩ | ⟨fault, rfl, hx⟩
        · exact Or.inl ⟨a, _, c₂, rfl, ⟨c₁, rfl, h₁⟩, h₂⟩
        · exact Or.inr ⟨fault, rfl, rest, rfl, hx⟩
      · rintro (⟨a, _, c₂, rfl, ⟨c₁, rfl, h₁⟩, h₂⟩ | ⟨fault, rfl, rest, rfl, h⟩)
        · exact ⟨c₁ ++ c₂, rfl, ih.mpr (Or.inl ⟨a, c₁, c₂, rfl, h₁, h₂⟩)⟩
        · exact ⟨rest, rfl, ih.mpr (Or.inr ⟨fault, rfl, h⟩)⟩
  | abort fault =>
      simp only [bind, ends_abort]
      constructor
      · rintro ⟨rfl, rfl⟩
        exact Or.inr ⟨fault, rfl, rfl, rfl⟩
      · rintro (⟨a, c₁, c₂, rfl, ⟨_, h⟩, _⟩ | ⟨fault', rfl, rfl, h⟩)
        · cases h
        · cases h
          exact ⟨rfl, rfl⟩

/-! ## What a dialogue gives -/

/-- Each course to the end has a result, and the two go together like this. -/
def Gives (d : Dialogue q r α) (P : Course q r → α → Prop) : Prop :=
  ∀ ⦃c : Course q r⦄ ⦃out : Except Duration.Fault α⦄, Ends d c out → ∃ a, out = .ok a ∧ P c a

variable {x : Dialogue q r α} {k : α → Dialogue q r β} {P : Course q r → α → Prop}
  {Q : Course q r → β → Prop}

theorem Gives.imp {P' : Course q r → α → Prop} (hx : x.Gives P) (h : ∀ c a, P c a → P' c a) :
    x.Gives P' := by
  intro c out hends
  obtain ⟨a, rfl, ha⟩ := hx hends
  exact ⟨a, rfl, h c a ha⟩

theorem gives_done {a : α} (h : P [] a) : (done a : Dialogue q r α).Gives P := by
  intro c out hends
  obtain ⟨rfl, rfl⟩ := ends_done.mp hends
  exact ⟨a, rfl, h⟩

/-- A dialogue that is done adds nothing to the course before it. -/
theorem gives_done_append {a : α} {c : Course q r} (h : P c a) :
    (done a : Dialogue q r α).Gives fun c' a => P (c ++ c') a := by
  refine gives_done ?_
  rwa [List.append_nil]

/-- What is left to do after a first part that gives something. -/
theorem Gives.ends_bind (hx : x.Gives P) {c : Course q r} {out : Except Duration.Fault β}
    (h : Ends (x.bind k) c out) : ∃ a c₁ c₂, c = c₁ ++ c₂ ∧ P c₁ a ∧ Ends (k a) c₂ out := by
  rcases Dialogue.ends_bind.mp h with ⟨a, c₁, c₂, rfl, h₁, h₂⟩ | ⟨fault, _, h₁⟩
  · obtain ⟨_, ha, h₁⟩ := hx h₁
    cases ha
    exact ⟨a, c₁, c₂, rfl, h₁, h₂⟩
  · obtain ⟨_, hfault, _⟩ := hx h₁
    cases hfault

theorem Gives.bind (hx : x.Gives P)
    (hk : ∀ a c, P c a → (k a).Gives fun c' b => Q (c ++ c') b) : (x.bind k).Gives Q := by
  intro c out h
  obtain ⟨a, c₁, c₂, rfl, h₁, h₂⟩ := hx.ends_bind h
  exact hk a c₁ h₁ h₂

theorem Gives.map {f : α → β} (hx : x.Gives P) (h : ∀ c a, P c a → Q c (f a)) :
    (x.bind fun a => .done (f a)).Gives Q :=
  hx.bind fun a c ha => gives_done_append (h c a ha)

/-! ## Runs -/

/-- Every run takes a course to the end. -/
theorem ends_run (answer : Answerer σ q r) (d : Dialogue q r α) (clock : Nat) (state : σ) :
    Ends d (d.course answer clock state) (d.run answer clock state).result := by
  induction d generalizing clock state with
  | done a => exact .done a
  | ask question next ih => exact .ask (ih _ _ _)
  | pause time next ih => exact .pause (ih _ _)
  | abort fault => exact .abort fault

theorem result_bind_done (answer : Answerer σ q r) (x : Dialogue q r α) (f : α → β)
    (clock : Nat) (state : σ) :
    ((x.bind fun a => .done (f a)).run answer clock state).result =
      (x.run answer clock state).result.map f := by
  induction x generalizing clock state with
  | done a => rfl
  | ask question next ih => exact ih _ _ _
  | pause time next ih => exact ih _ _
  | abort fault => rfl

theorem course_bind_done (answer : Answerer σ q r) (x : Dialogue q r α) (f : α → β)
    (clock : Nat) (state : σ) :
    (x.bind fun a => .done (f a)).course answer clock state = x.course answer clock state := by
  induction x generalizing clock state with
  | done a => rfl
  | ask question next ih => exact congrArg (_ :: ·) (ih _ _ _)
  | pause time next ih => exact congrArg (_ :: ·) (ih _ _)
  | abort fault => rfl

/-- The course of two parts, where the first one runs to some value. -/
theorem course_bind {answer : Answerer σ q r} {x : Dialogue q r α} {clock clock' : Nat}
    {state state' : σ} {a : α} (h : x.run answer clock state = ⟨.ok a, clock', state'⟩)
    (k : α → Dialogue q r β) :
    (x.bind k).course answer clock state =
      x.course answer clock state ++ (k a).course answer clock' state' := by
  induction x generalizing clock state with
  | done a' =>
      cases h
      rfl
  | ask question next ih => exact congrArg (_ :: ·) (ih _ h)
  | pause time next ih => exact congrArg (_ :: ·) (ih h)
  | abort fault => cases h

/-! ## Dialogues that come to a result -/

/-- No course breaks off for want of a duration. -/
def Completes (d : Dialogue q r α) : Prop := d.Gives fun _ _ => True

theorem Gives.completes (hx : x.Gives P) : x.Completes := hx.imp fun _ _ _ => trivial

theorem Completes.bind (hx : x.Completes) (hk : ∀ a, (k a).Completes) : (x.bind k).Completes :=
  Gives.bind hx fun a _ _ => hk a

theorem Completes.exists_run (hx : x.Completes) (answer : Answerer σ q r) (clock : Nat)
    (state : σ) : ∃ a clock' state', x.run answer clock state = ⟨.ok a, clock', state'⟩ := by
  obtain ⟨a, ha, _⟩ := hx (ends_run answer x clock state)
  exact ⟨a, (x.run answer clock state).clock, (x.run answer clock state).state, by rw [← ha]⟩

/-! ## Courses to some point -/

/-- A course to some point goes on with the next answer. -/
theorem Leads.answered {d : Dialogue q r α} {c : Course q r} {question : q}
    {next : r → Dialogue q r α} (h : Leads d c (.ask question next)) (answer : r) :
    Leads d (c ++ [.asked question answer]) (next answer) := by
  generalize hleft : Dialogue.ask question next = left at h
  induction h with
  | stay d =>
      subst hleft
      exact .ask (.stay _)
  | ask _ ih => exact .ask (ih hleft)
  | pause _ ih => exact .pause (ih hleft)

/-- A course to some point goes on after a pause. -/
theorem Leads.waited {d : Dialogue q r α} {c : Course q r} {time : Duration}
    {next : Dialogue q r α} (h : Leads d c (.pause time next)) :
    Leads d (c ++ [.paused time]) next := by
  generalize hleft : Dialogue.pause time next = left at h
  induction h with
  | stay d =>
      subst hleft
      exact .pause (.stay _)
  | ask _ ih => exact .ask (ih hleft)
  | pause _ ih => exact .pause (ih hleft)

theorem Leads.trans {d left later : Dialogue q r α} {c c' : Course q r} (h : Leads d c left)
    (hlater : Leads left c' later) : Leads d (c ++ c') later := by
  induction h with
  | stay d => exact hlater
  | ask _ ih => exact .ask (ih hlater)
  | pause _ ih => exact .pause (ih hlater)

theorem Leads.ends {d left : Dialogue q r α} {c c' : Course q r}
    {out : Except Duration.Fault α} (h : Leads d c left) (hleft : Ends left c' out) :
    Ends d (c ++ c') out := by
  induction h with
  | stay d => exact hleft
  | ask _ ih => exact .ask (ih hleft)
  | pause _ ih => exact .pause (ih hleft)

/-- Whatever is left of a dialogue comes to an end, if there is an answer at all. -/
theorem Leads.exists_ends [Inhabited r] {d left : Dialogue q r α} {c : Course q r}
    (h : Leads d c left) : ∃ c' out, Ends d (c ++ c') out ∧ Ends left c' out := by
  have hleft := ends_run (fun _ (_ : Unit) _ => (default, ())) left 0 ()
  exact ⟨_, _, h.ends hleft, hleft⟩

/-! ## Questions that are asked -/

/-- Whatever is answered, only such questions are asked. -/
def AsksOnly (P : q → Prop) : Dialogue q r α → Prop
  | done _ => True
  | ask question next => P question ∧ ∀ answer, (next answer).AsksOnly P
  | pause _ next => next.AsksOnly P
  | abort _ => True

section

variable {x : Dialogue q r α} {P : q → Prop}

theorem AsksOnly.bind {k : α → Dialogue q r β} (hx : x.AsksOnly P)
    (hk : ∀ a, (k a).AsksOnly P) : (x.bind k).AsksOnly P := by
  induction x with
  | done a => exact hk a
  | ask question next ih => exact ⟨hx.1, fun answer => ih answer (hx.2 answer)⟩
  | pause time next ih => exact ih hx
  | abort fault => trivial

theorem AsksOnly.map (hx : x.AsksOnly P) (f : α → β) :
    (x.bind fun a => .done (f a)).AsksOnly P :=
  hx.bind fun _ => trivial

/-- What is left of the dialogue at some point asks nothing else, either. -/
theorem AsksOnly.of_leads {left : Dialogue q r α} {c : Course q r} (hx : x.AsksOnly P)
    (h : Leads x c left) : left.AsksOnly P := by
  induction h with
  | stay d => exact hx
  | ask _ ih => exact ih (hx.2 _)
  | pause _ ih => exact ih hx

end

end SecretsWarden.Dialogue
