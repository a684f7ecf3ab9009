import GridQuery.Proofs.HandlerHistories

/-! # Single inputs

Along every line of copies a handler takes one input: once one was given to a member, or to one that it descends
from before the copy was taken, any further input is refused and changes nothing in the family. -/
namespace GridQuery.SingleInputs
open Family

variable {kind : HandlerKind} {settings : Document} {h : Handler} {i : Nat}

/-- What an input to a member of a family does after a history. It is refused iff one came before, and nothing
changes then. Pagination turns a tuple that it cannot take apart down without counting it; any other input counts,
whether it was read or not. -/
structure Single (kind : HandlerKind) (h : Handler) (history : List HandlerCall) (i : Nat) (v w : Value) :
    Prop where
  refused_iff : (∃ handler, ((grown h history).input i v w).answer = .error (.inputReused handler)) ↔
    InputBefore kind.Fits h history i
  refused : InputBefore kind.Fits h history i →
    (grown h history).input i v w = ⟨.error (.inputReused kind.handlerName), grown h history⟩
  misfit : ¬InputBefore kind.Fits h history i → ¬kind.Fits v →
    (grown h history).input i v w = ⟨.error .unacceptable, grown h history⟩
  any_counts : (kind ≠ .limit ∨ ∀ j v w, .input j v w ∈ history → kind.Fits v) →
    (InputBefore kind.Fits h history i ↔ InputBefore (fun _ => True) h history i)

theorem second_input_refused (hh : Handler.init kind settings = .ok h) (history : List HandlerCall)
    (hi : i < (grown h history).length) (v w : Value) : Single kind h history i v w := by
  have hu := usedByInput_of_init hh history
  have hrefused (hb : InputBefore kind.Fits h history i) := hu.refused hb v w
  obtain ⟨r, hr⟩ : ∃ r, (grown h history)[i]? = some r := ⟨_, List.getElem?_eq_getElem hi⟩
  obtain ⟨hkind, hused⟩ := hu i r hr
  have hfresh (hb : ¬InputBefore kind.Fits h history i) : r.handler.intake.received = false := by
    simpa [hb] using hused
  have hmisfit (hb : ¬InputBefore kind.Fits h history i) (hv : ¬kind.Fits v) : (grown h history).input i v w =
      ⟨.error .unacceptable, grown h history⟩ := by
    rw [← hkind] at hv
    rw [input_of_member hr, Handler.input_of_misfit (hfresh hb) hv]
    exact congrArg (Reply.mk _) (set_member hr)
  refine ⟨⟨?_, ?_⟩, hrefused, hmisfit, inputBefore_fits_iff⟩
  · rintro ⟨handler, hanswer⟩
    by_contra hb
    by_cases hv : kind.Fits v
    · rw [← hkind] at hv
      rw [input_of_member hr] at hanswer
      exact (Handler.takes_of_fresh (hfresh hb) hv w).not_reused handler hanswer
    · rw [hmisfit hb hv] at hanswer
      cases hanswer
  · intro hb
    exact ⟨kind.handlerName, by rw [hrefused hb]⟩

/-- Copies of a filter before and after an input that cannot be read, and a merge with nothing to merge into. -/
def retried : List HandlerCall :=
  [.merge 2 .null, .copy 0, .input 0 (.text "x") .null, .copy 0]

theorem second_input_refused_retried : ∃ h, Handler.init .filter [] = .ok h ∧
    (grown h retried).input 2 .null .null = ⟨.error (.inputReused "MongoFilter"), grown h retried⟩ ∧
    ∀ handler, ((grown h retried).input 1 .null .null).answer ≠ .error (.inputReused handler) := by
  obtain ⟨h, hh⟩ : ∃ h, Handler.init .filter [] = .ok h := ⟨_, rfl⟩
  have hlength : (grown h retried).length = 3 := by
    cases hh
    rfl
  have hsingle (i : Nat) (hi : i < 3) : Single .filter h retried i .null .null :=
    second_input_refused hh retried (by rwa [hlength]) .null .null
  refine ⟨h, hh, ?_, ?_⟩
  · apply (hsingle 2 (by decide)).refused
    cases hh
    exact .earlier (.inherited rfl (.given (by decide) fun hlimit => nomatch hlimit))
  · intro handler hanswer
    have hb := (hsingle 1 (by decide)).refused_iff.mp ⟨handler, hanswer⟩
    rw [retried, inputBefore_merge_iff, inputBefore_copy_iff, inputBefore_input_iff, inputBefore_copy_iff] at hb
    cases hh
    rcases hb with ((hb | ⟨_, hb⟩) | ⟨hb, _⟩) | ⟨hb, _⟩
    all_goals cases hb

/-- A tuple of three is an input to pagination, and the next input is taken all the same. -/
theorem misfit_not_counted : ∃ h, Handler.init .limit [] = .ok h ∧
    InputBefore (fun _ => True) h [.input 0 (.tuple [.int 1, .int 2, .int 3]) .null] 0 ∧
    ((grown h [.input 0 (.tuple [.int 1, .int 2, .int 3]) .null]).input 0 (.int 0) (.int 5)).answer = .ok () := by
  refine ⟨_, rfl, ?_, rfl⟩
  exact .given (by decide) trivial

end GridQuery.SingleInputs
