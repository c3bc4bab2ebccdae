import NodeFeatureOperator.Proofs.Causes

/-!
# What comes of a rejected write

A write that carries the version of what it was made from may be rejected because that has changed.
Whatever else happens in the pass, the rejection is among the causes of the failure with which the
pass ends, so that the pass is as worth a retry as the write.

## Main definitions

* `Call.isGuarded`: the writes that carry a version.
* `Exchange.Rebuffed`: such a write, rejected for a reason that may pass.

## Main results

* `reports_reconcile`: a pass reports a rebuffed write.
-/

namespace NodeFeatureOperator

/-- Whether a call is a write that carries the version of what it was made from. -/
def Call.isGuarded : Call → Bool
  | .updateResource _ => true
  | .update _ => true
  | _ => false

/-- A call that carries a version is not a look-up. -/
theorem Call.isRead_of_isGuarded {call : Call} (h : call.isGuarded = true) :
    call.isRead = false := by
  cases call <;> first | rfl | cases h

/-- A write that carries a version was rejected for a reason that may pass. -/
def Exchange.Rebuffed (e : Exchange) : Prop :=
  e.call.isGuarded = true ∧ ∃ f, e.answer = .error f ∧ f.isRetryable = true

/-- A pass reports a write that was rebuffed: it ends with a failure that is worth a retry. -/
theorem reports_reconcile (config : Config) (time : Time) (trigger : Metadata)
    (t : List Exchange) (r : Except Failure Action) (h : (reconcile config time trigger).Ends t r)
    (hrebuffed : ∃ e ∈ t, e.Rebuffed) : ∃ f, r = .error f ∧ f.isRetryable = true := by
  obtain ⟨e, he, hguarded, g, hg, hretry⟩ := hrebuffed
  have hfailed : e.Failed g := ⟨Call.isRead_of_isGuarded hguarded, hg⟩
  obtain ⟨f, rfl, hcauses⟩ := accounts_reconcile config time trigger t r h e he g hfailed
  exact ⟨f, rfl, Failure.isRetryable_of_causes_subset hcauses hretry⟩

end NodeFeatureOperator
