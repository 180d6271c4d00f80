import ProductionRag.Basis.Dialogue

/-!
# Programs that keep to a protocol

An observer of a dialogue is in a phase, which each exchange may change.  A program keeps to
the protocol when it asks only what its phase allows, whatever it is told.
-/

set_option autoImplicit false

namespace Basis

universe u v w x

/-- The phases of an observer: what may be asked in each, and what an exchange makes of it. -/
structure Protocol {ε : Type u} (ω : ε → Type v) (φ : Type x) where
  allows : φ → ε → Prop
  after : φ → Exchange ω → φ

namespace Protocol

variable {ε : Type u} {ω : ε → Type v} {α β : Type w} {φ : Type x} (protocol : Protocol ω φ)

/-- From this phase on the program asks only what is allowed. -/
def Kept (phase : φ) : Dialogue ε ω α → Prop
  | .done _ => True
  | .ask question next =>
    protocol.allows phase question ∧
      ∀ answer, Kept (protocol.after phase ⟨question, answer⟩) (next answer)

variable {protocol}

theorem Kept.allowed {phase : φ} {question : ε} {next : ω question → Dialogue ε ω α}
    (kept : protocol.Kept phase (.ask question next)) : protocol.allows phase question := kept.1

theorem Kept.told {phase : φ} {question : ε} {next : ω question → Dialogue ε ω α}
    (kept : protocol.Kept phase (.ask question next)) (answer : ω question) :
    protocol.Kept (protocol.after phase ⟨question, answer⟩) (next answer) := kept.2 answer

end Protocol

namespace Dialogue

variable {ε : Type u} {ω : ε → Type v} {α : Type w}

def isDone : Dialogue ε ω α → Bool
  | .done _ => true
  | .ask .. => false

end Dialogue

end Basis
