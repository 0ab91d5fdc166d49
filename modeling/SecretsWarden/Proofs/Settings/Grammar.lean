import SecretsWarden.Proofs.Except
import SecretsWarden.Proofs.Text.Numeral
import SecretsWarden.Proofs.Text.Utf8
import SecretsWarden.Settings

/-!
# Which settings are accepted

The texts that each variable may hold are given without the readers, and so is what a text
means. Each reader yields a value exactly if its variable is unset or holds such a text; what it
refuses, it reports with the variable and the text. As the variables are read one after the other
and the first fault ends the reading, the fault that is reported is that of the first variable
that is refused.
-/

namespace SecretsWarden.Settings

/-! ## Variables -/

inductive Variable where
  | webhookEnabled
  | webhookPort
  | certificateDirectory
  | failureDelay
  deriving DecidableEq, Repr

namespace Variable

def name : Variable → String
  | webhookEnabled => "WEBHOOK_ENABLED"
  | webhookPort => "WEBHOOK_PORT"
  | certificateDirectory => "WEBHOOK_CERT_DIR"
  | failureDelay => "ERROR_REQUEUE_SECS"

/-- The order in which the variables are read. -/
def inOrder : List Variable := [webhookEnabled, webhookPort, certificateDirectory, failureDelay]

def earlier (x : Variable) : List Variable := inOrder.takeWhile (· ≠ x)

/-- The texts that a variable may hold. -/
def Allows : Variable → String → Prop
  | webhookEnabled, v => v = "true" ∨ v = "false"
  | webhookPort, v => ∃ n ≤ 65535, Text.Writes v n
  | certificateDirectory, _ => True
  | failureDelay, v => ∃ n ≤ 2 ^ 64 - 1, Text.Writes v n

end Variable

namespace Fault

/-- The variable that the fault is about. -/
def subject : Fault → Variable
  | webhookEnabled _ => .webhookEnabled
  | webhookPort _ _ => .webhookPort
  | failureDelay _ _ => .failureDelay

def value : Fault → String
  | webhookEnabled v | webhookPort v _ | failureDelay v _ => v

theorem exists_append {text name rest : String} (v : String) (h : text = name ++ rest) :
    ∃ r, text ++ v ++ "'" = name ++ r :=
  ⟨rest ++ v ++ "'", by simp only [h, String.append_assoc]⟩

/-- A message begins with the name of the variable that it is about. -/
theorem message_eq_name_append (fault : Fault) :
    ∃ rest, fault.message = fault.subject.name ++ rest := by
  cases fault with
  | webhookEnabled v =>
      have h : "WEBHOOK_ENABLED must be true or false, got '" =
          "WEBHOOK_ENABLED" ++ " must be true or false, got '" := by decide
      exact exists_append v h
  | webhookPort v cause =>
      have h : "WEBHOOK_PORT is not a valid port: '" =
          "WEBHOOK_PORT" ++ " is not a valid port: '" := by decide
      exact exists_append v h
  | failureDelay v cause =>
      have h : "ERROR_REQUEUE_SECS is not a number: '" =
          "ERROR_REQUEUE_SECS" ++ " is not a number: '" := by decide
      exact exists_append v h

end Fault

variable {lookup : String → Option String}

/-- A variable is accepted if it is unset or holds a text that it may hold. -/
def Accepts (lookup : String → Option String) (x : Variable) : Prop :=
  ∀ v, lookup x.name = some v → x.Allows v

theorem accepts_certificateDirectory : Accepts lookup .certificateDirectory := fun _ _ => trivial

/-- What is said by a variable: what its text means, or the default if it is unset. -/
def Says {α : Type} (means : String → α → Prop) (default : α) : Option String → α → Prop
  | none, a => a = default
  | some v, a => means v a

/-- The settings are what the variables say. -/
structure SaidBy (lookup : String → Option String) (s : Settings) : Prop where
  webhookEnabled : Says (fun v b => v = if b then "true" else "false") true
    (lookup "WEBHOOK_ENABLED") s.webhookEnabled
  webhookPort : Says (fun v port => Text.Writes v port.toNat) (9443 : UInt16)
    (lookup "WEBHOOK_PORT") s.webhookPort
  certificateDirectory : Says (fun v directory => directory = v)
    "/tmp/k8s-webhook-server/serving-certs" (lookup "WEBHOOK_CERT_DIR") s.certificateDirectory
  failureDelay : Says (fun v delay => ∃ n ≤ 2 ^ 64 - 1, Text.Writes v n ∧ delay = .ofSeconds n)
    (.ofSeconds 30) (lookup "ERROR_REQUEUE_SECS") s.failureDelay

/-! ## One variable -/

/-- The reader yields what its variable says, and reports the text that the variable may not
hold. -/
structure Reads {α : Type} (read : Option String → Except Fault α) (x : Variable)
    (means : String → α → Prop) (default : α) : Prop where
  allows (v : String) : x.Allows v ↔ ∃ a, means v a
  ok (value : Option String) (a : α) : read value = .ok a ↔ Says means default value a
  error (value : Option String) (fault : Fault) :
    read value = .error fault → fault.subject = x ∧ value = some fault.value

section

variable {α : Type} {read : Option String → Except Fault α} {x y : Variable}
  {means : String → α → Prop} {default : α} {v : String}

theorem exists_says {value : Option String} :
    (∃ a, Says means default value a) ↔ ∀ v, value = some v → ∃ a, means v a := by
  cases value with
  | none => exact ⟨fun _ _ => nofun, fun _ => ⟨default, rfl⟩⟩
  | some w =>
      constructor
      · rintro ⟨a, ha⟩ v hv
        cases hv
        exact ⟨a, ha⟩
      · intro h
        exact h w rfl

theorem Reads.exists_ok (h : Reads read x means default) :
    (∃ a, read (lookup x.name) = .ok a) ↔ Accepts lookup x := by
  simp only [h.ok, exists_says, Accepts, h.allows]

theorem Reads.exists_error (h : Reads read x means default) :
    (∃ fault, read (lookup x.name) = .error fault ∧ fault.subject = y ∧ fault.value = v) ↔
      y = x ∧ lookup x.name = some v ∧ ¬ x.Allows v := by
  constructor
  · rintro ⟨fault, hread, rfl, rfl⟩
    obtain ⟨hx, hvalue⟩ := h.error _ _ hread
    refine ⟨hx, hvalue, fun hallows => ?_⟩
    obtain ⟨a, ha⟩ := (h.allows _).mp hallows
    have hok : read (lookup x.name) = .ok a := by
      rw [h.ok, hvalue]
      exact ha
    rw [hread] at hok
    cases hok
  · rintro ⟨rfl, hvalue, hallows⟩
    cases hread : read (lookup y.name) with
    | ok a =>
        rw [h.ok, hvalue] at hread
        exact absurd ((h.allows v).mpr ⟨a, hread⟩) hallows
    | error fault =>
        obtain ⟨hsubject, hfault⟩ := h.error _ _ hread
        rw [hvalue] at hfault
        cases hfault
        exact ⟨fault, rfl, hsubject, rfl⟩

end

theorem readBool?_eq_some {v : String} {b : Bool} :
    readBool? v = some b ↔ v = if b then "true" else "false" := by
  unfold readBool?
  cases b <;> split_ifs <;> simp_all

theorem readWebhookEnabled_reads :
    Reads readWebhookEnabled .webhookEnabled (fun v b => v = if b then "true" else "false")
      true where
  allows v := by simp [Variable.Allows, Bool.exists_bool, or_comm]
  ok value b := by
    cases value with
    | none => simp [readWebhookEnabled, Says, eq_comm]
    | some v =>
        rw [readWebhookEnabled, Says, ← readBool?_eq_some]
        cases readBool? v <;> simp
  error value fault h := by
    cases value with
    | none => cases h
    | some v =>
        rw [readWebhookEnabled] at h
        cases hread : readBool? v with
        | none => rw [hread] at h; cases h; exact ⟨rfl, rfl⟩
        | some b => rw [hread] at h; cases h

/-- A reader of numerals up to a limit. -/
theorem reads_numeral {α : Type} {read : Option String → Except Fault α} {x : Variable}
    {limit : Nat} {make : Nat → α} {default : α} {fault : String → Text.NumeralFault → Fault}
    (hallows : ∀ v, x.Allows v ↔ ∃ n ≤ limit, Text.Writes v n)
    (hfault : ∀ v cause, (fault v cause).subject = x ∧ (fault v cause).value = v)
    (hnone : read none = .ok default)
    (hsome : ∀ v, read (some v) =
      match Text.readNumeral limit v with
      | .ok n => .ok (make n)
      | .error cause => .error (fault v cause)) :
    Reads read x (fun v a => ∃ n ≤ limit, Text.Writes v n ∧ a = make n) default where
  allows v := by
    rw [hallows]
    constructor
    · rintro ⟨n, hn, hv⟩
      exact ⟨make n, n, hn, hv, rfl⟩
    · rintro ⟨_, n, hn, hv, -⟩
      exact ⟨n, hn, hv⟩
  ok value a := by
    cases value with
    | none => simp [hnone, Says, eq_comm]
    | some v =>
        rw [hsome, Says]
        constructor
        · intro h
          cases hread : Text.readNumeral limit v with
          | error cause => rw [hread] at h; cases h
          | ok n =>
              rw [hread] at h
              cases h
              obtain ⟨hv, hn⟩ := Text.readNumeral_eq_ok.mp hread
              exact ⟨n, hn, hv, rfl⟩
        · rintro ⟨n, hn, hv, rfl⟩
          rw [Text.readNumeral_eq_ok.mpr ⟨hv, hn⟩]
  error value f h := by
    cases value with
    | none =>
        rw [hnone] at h
        cases h
    | some v =>
        rw [hsome] at h
        cases hread : Text.readNumeral limit v with
        | ok n => rw [hread] at h; cases h
        | error cause =>
            rw [hread] at h
            cases h
            exact ⟨(hfault v cause).1, congrArg some (hfault v cause).2.symm⟩

theorem readWebhookPort_reads :
    Reads readWebhookPort .webhookPort (fun v port => Text.Writes v port.toNat) 9443 := by
  have hmeans : (fun v (port : UInt16) => Text.Writes v port.toNat) =
      fun v port => ∃ n ≤ 65535, Text.Writes v n ∧ port = n.toUInt16 := by
    ext v port
    constructor
    · intro hv
      exact ⟨port.toNat, Nat.le_of_lt_succ port.toNat_lt, hv, UInt16.ofNat_toNat.symm⟩
    · rintro ⟨n, hn, hv, rfl⟩
      rwa [Nat.toUInt16_eq, UInt16.toNat_ofNat_of_lt' (Nat.lt_succ_of_le hn)]
  rw [hmeans]
  exact reads_numeral (fun _ => Iff.rfl) (fun _ _ => ⟨rfl, rfl⟩) rfl fun _ => rfl

theorem readFailureDelay_reads :
    Reads readFailureDelay .failureDelay
      (fun v delay => ∃ n ≤ 2 ^ 64 - 1, Text.Writes v n ∧ delay = .ofSeconds n)
      (.ofSeconds 30) :=
  reads_numeral (fun _ => Iff.rfl) (fun _ _ => ⟨rfl, rfl⟩) rfl fun _ => rfl

/-! ## All variables -/

theorem ofVariables_eq_ok {s : Settings} :
    ofVariables lookup = .ok s ↔
      readWebhookEnabled (lookup Variable.webhookEnabled.name) = .ok s.webhookEnabled ∧
        readWebhookPort (lookup Variable.webhookPort.name) = .ok s.webhookPort ∧
        s.certificateDirectory =
          (lookup "WEBHOOK_CERT_DIR").getD "/tmp/k8s-webhook-server/serving-certs" ∧
        readFailureDelay (lookup Variable.failureDelay.name) = .ok s.failureDelay := by
  unfold ofVariables
  simp only [Except.bind_eq_ok]
  constructor
  · rintro ⟨enabled, henabled, port, hport, delay, hdelay, hs⟩
    cases hs
    exact ⟨henabled, hport, rfl, hdelay⟩
  · rintro ⟨henabled, hport, hdirectory, hdelay⟩
    refine ⟨_, henabled, _, hport, _, hdelay, ?_⟩
    rw [← hdirectory]
    rfl

/-- A fault is that of the first reader that has one. -/
theorem ofVariables_eq_error {fault : Fault} :
    ofVariables lookup = .error fault ↔
      readWebhookEnabled (lookup Variable.webhookEnabled.name) = .error fault ∨
        (∃ b, readWebhookEnabled (lookup Variable.webhookEnabled.name) = .ok b) ∧
          (readWebhookPort (lookup Variable.webhookPort.name) = .error fault ∨
            (∃ p, readWebhookPort (lookup Variable.webhookPort.name) = .ok p) ∧
              readFailureDelay (lookup Variable.failureDelay.name) = .error fault) := by
  unfold ofVariables
  simp only [Except.bind_eq_error, exists_and_right, Variable.name, pure, Except.pure, reduceCtorEq,
    and_false, exists_false, or_false]

theorem exists_ofVariables_eq_ok :
    (∃ s, ofVariables lookup = .ok s) ↔ ∀ x, Accepts lookup x := by
  simp only [ofVariables_eq_ok]
  constructor
  · rintro ⟨s, henabled, hport, -, hdelay⟩ x
    cases x with
    | webhookEnabled => exact readWebhookEnabled_reads.exists_ok.mp ⟨_, henabled⟩
    | webhookPort => exact readWebhookPort_reads.exists_ok.mp ⟨_, hport⟩
    | certificateDirectory => exact accepts_certificateDirectory
    | failureDelay => exact readFailureDelay_reads.exists_ok.mp ⟨_, hdelay⟩
  · intro h
    obtain ⟨enabled, henabled⟩ := readWebhookEnabled_reads.exists_ok.mpr (h .webhookEnabled)
    obtain ⟨port, hport⟩ := readWebhookPort_reads.exists_ok.mpr (h .webhookPort)
    obtain ⟨delay, hdelay⟩ := readFailureDelay_reads.exists_ok.mpr (h .failureDelay)
    exact ⟨⟨enabled, port, _, delay⟩, henabled, hport, rfl, hdelay⟩

theorem ofVariables_eq_ok_iff_saidBy {s : Settings} :
    ofVariables lookup = .ok s ↔ SaidBy lookup s := by
  have hdirectory : s.certificateDirectory =
        (lookup "WEBHOOK_CERT_DIR").getD "/tmp/k8s-webhook-server/serving-certs" ↔
      Says (fun v directory => directory = v) "/tmp/k8s-webhook-server/serving-certs"
        (lookup "WEBHOOK_CERT_DIR") s.certificateDirectory := by
    cases lookup "WEBHOOK_CERT_DIR" <;> rfl
  rw [ofVariables_eq_ok, readWebhookEnabled_reads.ok, readWebhookPort_reads.ok,
    readFailureDelay_reads.ok, hdirectory]
  exact ⟨fun ⟨henabled, hport, hdirectory, hdelay⟩ => ⟨henabled, hport, hdirectory, hdelay⟩,
    fun h => ⟨h.webhookEnabled, h.webhookPort, h.certificateDirectory, h.failureDelay⟩⟩

/-- What is reported is the first variable that is not accepted, with its text. -/
theorem exists_ofVariables_eq_error {x : Variable} {v : String} :
    (∃ fault, ofVariables lookup = .error fault ∧ fault.subject = x ∧ fault.value = v) ↔
      (∀ y ∈ x.earlier, Accepts lookup y) ∧ lookup x.name = some v ∧ ¬ x.Allows v := by
  simp only [ofVariables_eq_error, or_and_right, and_assoc, exists_or, exists_and_left]
  simp only [readWebhookEnabled_reads.exists_error, readWebhookEnabled_reads.exists_ok,
    readWebhookPort_reads.exists_error, readWebhookPort_reads.exists_ok,
    readFailureDelay_reads.exists_error]
  cases x with
  | webhookEnabled => simp [Variable.earlier, Variable.inOrder]
  | webhookPort => simp [Variable.earlier, Variable.inOrder]
  | certificateDirectory => simp [Variable.earlier, Variable.inOrder, Variable.Allows]
  | failureDelay =>
      simp [Variable.earlier, Variable.inOrder, accepts_certificateDirectory, and_assoc]

/-- **The grammar of the settings.** Settings are read exactly if each variable is unset or holds
a text that it may hold, and then they are what the variables say. Otherwise the fault is about the
first variable in the order of reading that holds another text, whatever the later ones hold, and
its message begins with the name of that variable. Read from an environment, a variable whose bytes
are no UTF-8 is unset. -/
theorem settings_grammar (lookup : String → Option String)
    (environment : String → Option (List UInt8)) :
    ((∃ s, ofVariables lookup = .ok s) ↔ ∀ x, Accepts lookup x) ∧
      (∀ s, ofVariables lookup = .ok s ↔ SaidBy lookup s) ∧
      (∀ x v, (∃ fault, ofVariables lookup = .error fault ∧ fault.subject = x ∧ fault.value = v) ↔
        (∀ y ∈ x.earlier, Accepts lookup y) ∧ lookup x.name = some v ∧ ¬ x.Allows v) ∧
      (∀ fault : Fault, ∃ rest, fault.message = fault.subject.name ++ rest) ∧
      ofEnvironment environment =
        ofVariables fun name =>
          (environment name).bind fun bytes => String.fromUTF8? bytes.toByteArray := by
  refine ⟨exists_ofVariables_eq_ok, fun s => ofVariables_eq_ok_iff_saidBy,
    fun x v => exists_ofVariables_eq_error, Fault.message_eq_name_append, ?_⟩
  simp only [ofEnvironment, Text.toOption_decodeUtf8]

/-- Zeros in front of a port do not count, and a port past the limit is reported before a delay
that is no number. -/
example :
    readWebhookPort (some "+0065535") = .ok 65535 ∧
      ofVariables (fun name =>
          if name = "WEBHOOK_PORT" then some "65536"
          else if name = "ERROR_REQUEUE_SECS" then some "soon" else none) =
        .error (.webhookPort "65536" .tooLarge) := by
  decide

end SecretsWarden.Settings
