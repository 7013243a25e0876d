import ScriptSandbox.Proofs.Enforce.Shaped
import ScriptSandbox.Proofs.Harvest.Flattening
import ScriptSandbox.Proofs.Harvest.Readable

/-!
# Harvesting shaped nodes

Both harvests can read a node that has the shape of its kind.  They keep all nodes but the
namespaces and imports of trusted code.
-/

namespace ScriptSandbox

variable {store : Store} {n : Node}

private theorem isDefineCall_of_shaped (h : n.Shaped) : ∃ isDefine, isDefineCall n = .ok isDefine :=
    by
  unfold isDefineCall
  split
  next written hkind hname =>
    rw [Node.Shaped, hkind] at h
    obtain ⟨text, htext⟩ := (h.2.1 written hname).nameText
    exact ⟨decide (Text.lower text = "define"), by rw [htext]; rfl⟩
  next => exact ⟨false, rfl⟩

theorem OwnHarvest.readable_of_shaped (h : n.Shaped) : Readable store n where
  call := isDefineCall_of_shaped h
  constant hcall _ _ := by
    rw [Node.Shaped, kind_of_isDefineCall hcall] at h
    exact Node.definedConstant_of_shape h.2.2
  globals hkind _ := by
    rw [Node.Shaped, hkind] at h
    exact Node.globalNames_of_shape h

theorem TrustedHarvest.readable_of_shaped (h : n.Shaped) : Readable store n := by
  unfold Node.Shaped at h
  unfold Readable
  split
  case h_7 => trivial
  all_goals
    rename_i hkind
    rw [hkind] at h
  · exact ⟨h.2.1.readable, fun _ _ => Node.definedConstant_of_shape h.2.2⟩
  · exact Node.NameSpelledOut.readable h
  · exact Node.NameSpelledOut.readable h
  · exact fun _ => Node.globalNames_of_shape h
  · refine ⟨Node.namespaceReadable_of_shapes h, fun _ => ?_⟩
    obtain ⟨items, hitems, _⟩ := Value.Lists.items h.2
    exact ⟨items, hitems⟩
  · exact Node.itemsReadable_of_lists h fun _ => Value.importReadable_of_fits

theorem OwnHarvest.leave_spares (n : Node) :
    Run.Yields (fun _ => True) (visitor.leave n) (Spares n) :=
  (keepsOrFails n).mono fun verdict hverdict => by
    rw [hverdict]
    trivial

theorem TrustedHarvest.node_spares (n : Node) :
    Run.Yields (fun _ => True) (node n) (Spares n) := by
  refine (node_flattens n).mono fun verdict hverdict => ?_
  cases verdict with
  | keep => trivial
  | replace result => exact .inl hverdict.2
  | remove => exact .inr hverdict
  | splice items =>
      refine ⟨.inl hverdict.1, fun hshaped => ?_⟩
      rw [Node.Shaped, hverdict.1] at hshaped
      exact hshaped.2.of_items hverdict.2
  | other value => exact hverdict

end ScriptSandbox
