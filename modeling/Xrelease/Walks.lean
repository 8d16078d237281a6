-- Which calls a delivery can make (`pipeline/poll.rs`): what is claimed of each call is claimed of
-- every run of the delivery.
import Xrelease.Recorded

namespace xrelease.walks

open xrelease.model xrelease.store xrelease.engine xrelease.outbox xrelease.pipeline
open xrelease.recorded xrelease.pieces keyed calls calls.Prog

/-- The calls that lease a row and deliver it. -/
def leases {γ : Type} (op : Call γ) : Prop :=
  match op with
  | .claim_outbox_row _ _ => True
  | op => ∃ id source_id seen, belongs id source_id seen op

/-- The calls that put releases into the outbox and deliver them inline. -/
def delivers {γ : Type} (op : Call γ) : Prop :=
  match op with
  | .utc_now | .insert_outbox _ _ _ | .select_outbox _ _ | .reopen_outbox _ _ _
  | .record_seen _ _ | .claim_outbox_row _ _ => True
  | op => ∃ id source_id seen, belongs id source_id seen op

variable {bad : {γ : Type} → Call γ → Prop}

theorem never_deliver_inline (h : ∀ {γ : Type} (op : Call γ), leases op → ¬ bad op)
    (watch : Watch) (release : Release) (enqueued : EnqueueOutcome) :
    (deliver_inline watch release enqueued).Never bad := by
  unfold deliver_inline
  split
  · trivial
  · refine never_bind (never_perform (h _ trivial)) ?_
    intro claimed
    split
    · trivial
    · refine never_of_within (piece_attempt 0 (context_of watch release) false) ?_
      intro γ op hb
      apply h
      cases op <;> first | trivial | exact ⟨_, _, _, hb⟩

theorem never_deliver_release (h : ∀ {γ : Type} (op : Call γ), delivers op → ¬ bad op)
    (watch : Watch) (release : Release) : (deliver_release watch release).Never bad := by
  refine keeps_deliver_release compositional_never ?_ (h _ trivial) (fun enqueued => ?_)
  · intro γ op hop
    apply h
    cases op <;> trivial
  · refine never_deliver_inline ?_ watch release enqueued
    intro γ op hop
    apply h
    cases op <;> trivial

end xrelease.walks
