import ScriptSandbox.Gate
import ScriptSandbox.Proofs.Enforce.PairedVerdicts
import ScriptSandbox.Proofs.Harvest.Paired

/-!
# Passes side by side

The passes of the gate, run on trees that are alike against stores that are equal but for
their logs, end alike, and leave stores that are equal but for their logs.
-/

namespace ScriptSandbox

namespace Gate

variable {L : Likeness} {nodes others trusted trusted' : Tree}

def Paired {α β : Type} (L : Likeness) (run : Gate α) (other : Gate β) (Q : α → β → Prop) : Prop :=
  Run.Paired Store.SameButLog (WalkFailure.Alike L (Refusal.Alike L)) run other Q

theorem log_paired {E : WalkFailure Refusal → WalkFailure Refusal → Prop}
    (entry other : AuditEntry) :
    Run.Paired Store.SameButLog E (log entry) (log other) fun _ _ => True :=
  Run.Paired.modify fun _ _ hst => Store.pairing_sameButLog.record entry other hst

theorem harvestTrusted_paired (hL : L.Faithful) (htext : ∀ a b, ¬ L.text a b)
    (h : ItemsAlike L trusted trusted') :
    Gate.Paired L (harvestTrusted trusted) (harvestTrusted trusted') fun _ _ => True := by
  apply (Walk.tree_paired (TrustedHarvest.visitor_pairs hL htext) (fun _ => rfl) (fun _ => rfl)
    h).bind
  intro _ _ _
  exact Run.Paired.pure trivial

theorem harvestOwn_paired (hL : L.Faithful) (htext : ∀ a b, ¬ L.text a b)
    (h : ItemsAlike L nodes others) :
    Gate.Paired L (harvestOwn nodes) (harvestOwn others) fun _ _ => True := by
  apply (Walk.tree_paired (OwnHarvest.visitor_pairs hL htext) (fun _ => rfl) (fun _ => rfl)
    h).bind
  intro _ _ _
  exact Run.Paired.pure trivial

theorem validate_paired (hL : L.Faithful) (htexts : ∀ a b, L.callee a b → L.text a b)
    (h : ItemsAlike L nodes others) :
    Gate.Paired L (validate nodes) (validate others) (ItemsAlike L) :=
  Walk.tree_paired
    (Enforce.visitor_pairs Store.pairing_sameButLog hL htexts fun _ _ hst => hst.declared_eq)
    (fun _ => rfl) (fun _ => rfl) h

end Gate

end ScriptSandbox
