import SecretsWarden.Duration

/-!
# Dialogues

A dialogue is a computation that may ask questions, pause, and end with a value or with the
fault of a duration that cannot be computed. It is a tree: what follows a question is a
function of the answer. So a dialogue says what is asked and when, and whoever runs it
decides what is answered.
-/

namespace SecretsWarden

/-- A computation of an `α` that asks questions `q` and gets answers `r`. -/
inductive Dialogue (q r α : Type) where
  | done (value : α)
  | ask (question : q) (next : r → Dialogue q r α)
  | pause (time : Duration) (next : Dialogue q r α)
  | abort (fault : Duration.Fault)

namespace Dialogue

/-- Goes on with the value of a dialogue. -/
def bind : Dialogue q r α → (α → Dialogue q r β) → Dialogue q r β
  | done a, k => k a
  | ask question next, k => ask question fun answer => (next answer).bind k
  | pause time next, k => pause time (next.bind k)
  | abort fault, _ => abort fault

def query (question : q) : Dialogue q r r := ask question done

/-- Asks other questions in place of its own. -/
def translate (f : q → q') : Dialogue q r α → Dialogue q' r α
  | done a => done a
  | ask question next => ask (f question) fun answer => (next answer).translate f
  | pause time next => pause time (next.translate f)
  | abort fault => abort fault

/-- A duration, or the end of the dialogue if there is none. -/
def duration : Except Duration.Fault Duration → Dialogue q r Duration
  | .ok d => done d
  | .error fault => abort fault

@[simp]
theorem bind_done_right (x : Dialogue q r α) : x.bind done = x := by
  induction x with
  | done => rfl
  | ask question next ih => simp [bind, ih]
  | pause time next ih => simp [bind, ih]
  | abort => rfl

theorem bind_assoc (x : Dialogue q r α) (k : α → Dialogue q r β) (l : β → Dialogue q r γ) :
    (x.bind k).bind l = x.bind fun a => (k a).bind l := by
  induction x with
  | done => rfl
  | ask question next ih => simp [bind, ih]
  | pause time next ih => simp [bind, ih]
  | abort => rfl

end Dialogue

end SecretsWarden
