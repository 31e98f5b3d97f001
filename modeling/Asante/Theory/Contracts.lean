import Asante.Core.Contract
import Asante.Model.Main

/-!
# Contracts of the Application

The rules of a contract for the ways the application puts its programs together:
a command whose answer is returned or raised, a validated body, the guarded
decision of an approval endpoint, and the retry loop. They hold for every
contract, whatever it asks of the commands and whatever it promises of their
answers.

## Theorems

* `yields_ask`, `yields_orRaise`: One command.
* `yields_validated`, `yields_approvalErrors`: The wrappers of the endpoints.
* `yields_retry`: The retry loop.
-/

namespace Asante

open Core.Prog Core.Contract

variable {K : Core.Contract Cmd Cmd.Answer Env World} {α : Type} {Q : α → Prop}

/-- A command answers what it ensures. -/
theorem yields_ask {c : Cmd} (hc : K.requires c) : K.Yields (E := Exc) (K.ensures c) (ask c) :=
  ⟨hc, fun _ hr => hr⟩

theorem yields_ofExcept {r : Except Exc α} (h : ∀ a, r = .ok a → Q a) :
    K.Yields Q (Core.Prog.ofExcept r) := by
  cases r with
  | ok a => exact h a rfl
  | error e => trivial

theorem yields_orRaise {P : Except Exc α → Prop} {p : App (Except Exc α)} (h : K.Yields P p)
    (hQ : ∀ a, P (.ok a) → Q a) : K.Yields Q (orRaise p) :=
  yields_bind _ h fun _ hr => yields_ofExcept fun a ha => hQ a (ha ▸ hr)

theorem yields_validated {valid : Bool} {endpoint : App α} (h : K.Yields Q endpoint) :
    K.Yields Q (validated valid endpoint) := by
  unfold validated
  split
  · exact h
  · trivial

/-- The errors of a decision return nothing. -/
theorem yields_approvalErrors {decision : App α} (h : K.Yields Q decision) :
    K.Yields Q (approvalErrors decision) := by
  refine yields_tryCatch _ h fun e => ?_
  split
  · trivial
  · split
    · trivial
    · trivial

/-- What every attempt returns, the retry loop does. -/
theorem yields_retry {operation : App α} {policy : RetryPolicy}
    (hrecord : ∀ n, K.requires (.recordCreditRetry n)) (hsleep : ∀ q, K.requires (.sleep q))
    (h : K.Yields Q operation) : ∀ left attempt, K.Yields Q
      (retryFrom operation policy (fun n => ask (.recordCreditRetry n)) left attempt) := by
  intro left
  induction left with
  | zero => exact fun _ => trivial
  | succ left ih =>
      intro attempt
      refine yields_tryCatch _ h fun e => ?_
      split
      · split
        · trivial
        · refine yields_bind _ (yields_ask (hrecord _)) fun _ _ => ?_
          dsimp only
          split
          · exact yields_bind _ (yields_ask (hsleep _)) fun _ _ => ih (attempt + 1)
          · exact ih (attempt + 1)
      · trivial

end Asante
