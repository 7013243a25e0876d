import ScriptSandbox.Proofs.Harvest.Defining
import ScriptSandbox.Proofs.Harvest.RelaxedTrusted

/-!
# Harvesting own definitions where more is allowed

A node is harvested wherever what the harvest looks at in it can be read.  A script that
passes makes its declarations with features that are allowed, so allowing more features
harvests the same declarations from it, and can add only the constants that it defines.
-/

namespace ScriptSandbox

open Judge

namespace OwnHarvest

variable {store later : Store} {n : Node}

/-- What the harvest looks at in the node can be read. -/
structure Readable (store : Store) (n : Node) : Prop where
  call : ∃ isDefine, isDefineCall n = .ok isDefine
  constant : isDefineCall n = .ok true → enabled store .constants .constants .constants = true →
    store.isOverridden "define" = false → ∃ found, definedConstant (.node n) = .ok found
  globals : n.kind = .statement .globalDecl → restrictsGlobals store = true →
    ∃ names, globalNames n = .ok names

@[simp] theorem isDefineCall_of_kind_ne (h : n.kind ≠ .expression .funcCall) :
    isDefineCall n = .ok false := by
  unfold isDefineCall
  split
  · exact absurd ‹_› h
  · rfl

private theorem passes_read_bind_iff {α β : Type} {result : Except Malformed α} {next : α → Judge β}
    (hnext : ∀ value, (next value).Passes store) :
    (Judge.read result >>= next).Passes store ↔ ∃ value, result = .ok value := by
  rw [Judge.passes_read_bind]
  exact exists_congr fun value => and_iff_left (hnext value)

@[simp] theorem passes_if_iff {c : Prop} [Decidable c] {run : Judge Unit} :
    (if c then run else pure ()).Passes store ↔ (c → run.Passes store) := by
  by_cases h : c
  · rw [if_pos h]
    exact ⟨fun hrun _ => hrun, fun hrun => hrun h⟩
  · rw [if_neg h]
    exact iff_of_true rfl fun hc => absurd hc h

private theorem constant_passes_iff :
    (constant n).Passes store ↔
      ∃ isDefine, isDefineCall n = .ok isDefine ∧
        (isDefine = true → enabled store .constants .constants .constants = true →
          store.isOverridden "define" = false →
            ∃ found, definedConstant (.node n) = .ok found) := by
  unfold constant
  rw [Judge.passes_read_bind]
  refine exists_congr fun isDefine => and_congr_right fun _ => ?_
  rw [passes_if_iff]
  refine forall_congr' fun _ => ?_
  change (if _ then _ else _ : Judge Unit).Passes store ↔ _
  rw [passes_if_iff, passes_read_bind_iff, Bool.and_eq_true, Bool.not_eq_true', and_imp]
  intro found
  cases found <;> rfl

private theorem globals_passes_iff :
    (globals n).Passes store ↔
      (restrictsGlobals store = true → ∃ names, globalNames n = .ok names) := by
  change (if _ then _ else _ : Judge Unit).Passes store ↔ _
  rw [passes_if_iff, passes_read_bind_iff]
  intro names
  rfl

@[simp] theorem node_passes_iff : (node n).Passes store ↔ Readable store n := by
  by_cases hcall : n.kind = .expression .funcCall
  · have hnode : node n = constant n := by
      unfold node
      rw [hcall]
    rw [hnode, constant_passes_iff]
    constructor
    · rintro ⟨isDefine, hdefine, hconstant⟩
      refine ⟨⟨isDefine, hdefine⟩, fun hon => hconstant ?_, fun hkind => ?_⟩
      · exact Except.ok.inj (hdefine.symm.trans hon)
      · rw [hcall] at hkind
        cases hkind
    · rintro ⟨⟨isDefine, hdefine⟩, hconstant, _⟩
      exact ⟨isDefine, hdefine, fun hon => hconstant (hon ▸ hdefine)⟩
  · have hdefine := isDefineCall_of_kind_ne hcall
    have hread : Readable store n ↔ (n.kind = .statement .globalDecl →
        restrictsGlobals store = true → ∃ names, globalNames n = .ok names) := by
      refine ⟨Readable.globals, fun hglobals => ⟨⟨false, hdefine⟩, fun hon => ?_, hglobals⟩⟩
      rw [hdefine] at hon
      cases hon
    rw [hread]
    by_cases hglobal : n.kind = .statement .globalDecl
    · have hnode : node n = globals n := by
        unfold node
        rw [hglobal]
      rw [hnode, globals_passes_iff]
      exact ⟨fun h _ => h, fun h => h hglobal⟩
    · refine iff_of_true ?_ fun hkind => absurd hkind hglobal
      unfold node
      split <;> first | rfl | contradiction

@[simp] theorem leave_passes_iff : (visitor.leave n).Passes store ↔ Readable store n := by
  rw [← node_passes_iff]
  change (node n >>= fun _ => pure Verdict.keep).Passes store ↔ _
  rw [Run.Passes, Run.Passes, Run.exec_bind_pure]
  cases ((node n).exec store).1 <;> rfl

protected theorem SameHarvest.trans {mid : Store} (h : SameHarvest store mid)
    (h' : SameHarvest mid later) : SameHarvest store later :=
  ⟨h'.options.trans h.options, h'.denied.trans h.denied, h'.overrides.trans h.overrides,
    h'.restriction.trans h.restriction⟩

theorem Readable.of_same (h : Readable store n) (hsame : SameHarvest store later) :
    Readable later n := by
  refine ⟨h.call, fun hcall hon hruntime => ?_, fun hkind hrestricts => ?_⟩
  · rw [hsame.enabled_eq] at hon
    rw [hsame.isOverridden_eq] at hruntime
    exact h.constant hcall hon hruntime
  · rw [hsame.restrictsGlobals_eq] at hrestricts
    exact h.globals hkind hrestricts

theorem visitor_returnsIf (start : Store) :
    visitor.ReturnsIf (fun _ => SameHarvest start) (Readable start) := by
  intro n s t hst verdict after hrun
  have hkeep := (keepsOrFails n).ok trivial hrun
  refine ⟨fun hreadable => ?_, fun hpasses => ?_⟩
  · obtain ⟨other, after', hrun'⟩ :=
      exists_of_isOk (leave_passes_iff.mpr (hreadable.of_same hst))
    have hkeep' := (keepsOrFails n).ok trivial hrun'
    rw [hkeep.2, ← hkeep'.2]
    exact ⟨after', hrun', hst.trans (Adds.nil.snoc hrun').sameHarvest⟩
  · exact (leave_passes_iff.mp hpasses).of_same hst.symm

end OwnHarvest

namespace Gate

variable {script : Tree} {store other mid : Store}

theorem readable_of_harvestOwn (hrun : (harvestOwn script).exec store = (.ok (), mid)) :
    ∀ n ∈ visitedIn script, OwnHarvest.Readable store n := by
  obtain ⟨walked, hwalk⟩ := walk_of_harvestOwn hrun
  have hpasses : (Walk.tree [OwnHarvest.visitor] script).Passes store := by
    rw [Run.Passes, hwalk]
    rfl
  rw [← offers_of_harvestOwn hwalk]
  refine List.forall_mem_map.mpr ?_
  exact (Walk.tree_returnsIf (OwnHarvest.visitor_returnsIf store) ⟨rfl, rfl, rfl, rfl⟩ hwalk).2 hpasses

theorem harvestOwn_returns (hrun : (harvestOwn script).exec store = (.ok (), mid))
    (hreadable : ∀ n ∈ visitedIn script, OwnHarvest.Readable other n) :
    ∃ last, (harvestOwn script).exec other = (.ok (), last) := by
  obtain ⟨walked, hwalk⟩ := walk_of_harvestOwn hrun
  rw [← offers_of_harvestOwn hwalk] at hreadable
  obtain ⟨last, hlast, _⟩ := (Walk.tree_returnsIf (OwnHarvest.visitor_returnsIf other)
    ⟨rfl, rfl, rfl, rfl⟩ hwalk).1 (List.forall_mem_map.mp hreadable)
  refine ⟨last, ?_⟩
  rw [exec_harvestOwn, hlast]
  rfl

end Gate

namespace OwnHarvest

/-- The feature that a declaration of the kind needs in order to pass. -/
inductive Needs : Kind → Feature → Prop where
  | declaration {kind : Kind} {feature : Feature} {definable : Definable} {category : Category}
      (hkind : Introduces kind feature definable category) : Needs kind feature
  | globalDecl : Needs (.statement .globalDecl) .globals

variable {spared : Category → Prop} {store other : Store} {n : Node} {category : Category}
  {name : String}

theorem enabled_of_grows {after : Store} (h : store.Grows after) (feature : Feature)
    (definable : Definable) (category : Category) :
    enabled after feature definable category = enabled store feature definable category := by
  rw [enabled, h.allows_eq, h.hasBlacklist_eq, h.flag_eq, enabled]

/-- Stores into which a script is harvested side by side. -/
structure Alongside (spared : Category → Prop) (store other : Store) : Prop where
  relaxed : store.Relaxed spared other
  listed : ∀ definable, other.flag (.autoWhitelist definable) = store.flag (.autoWhitelist definable)
  restriction : other.hasWhitelist .variables = store.hasWhitelist .variables

section

variable (h : Alongside spared store other)

include h

private theorem enabled_mono {feature : Feature} {definable : Definable}
    (hon : enabled store feature definable category = true) :
    enabled other feature definable category = true := by
  simp only [enabled, Bool.and_eq_true, h.listed definable, h.relaxed.hasBlacklist_eq] at hon ⊢
  exact ⟨⟨h.relaxed.allows feature hon.1.1, hon.1.2⟩, hon.2⟩

private theorem enabled_of_allows {feature : Feature} {definable : Definable}
    (hallow : store.allows feature = true)
    (hon : enabled other feature definable category = true) :
    enabled store feature definable category = true := by
  simp only [enabled, Bool.and_eq_true, h.listed definable, h.relaxed.hasBlacklist_eq] at hon ⊢
  exact ⟨⟨hallow, hon.1.2⟩, hon.2⟩

private theorem restrictsGlobals_mono (hon : restrictsGlobals store = true) :
    restrictsGlobals other = true := by
  simp only [restrictsGlobals, Bool.and_eq_true, h.listed .globals, h.relaxed.hasBlacklist_eq,
    h.restriction] at hon ⊢
  exact ⟨⟨⟨h.relaxed.allows .globals hon.1.1.1, hon.1.1.2⟩, hon.1.2⟩, hon.2⟩

private theorem restrictsGlobals_of_allows (hallow : store.allows .globals = true)
    (hon : restrictsGlobals other = true) : restrictsGlobals store = true := by
  simp only [restrictsGlobals, Bool.and_eq_true, h.listed .globals, h.relaxed.hasBlacklist_eq,
    h.restriction] at hon ⊢
  exact ⟨⟨⟨hallow, hon.1.1.2⟩, hon.1.2⟩, hon.2⟩

theorem Defines.relaxed (hdefines : Defines store n category name) :
    Defines other n category name := by
  cases hdefines with
  | declaration hkind hname hon => exact .declaration hkind hname (enabled_mono h hon)
  | classType hkind hname hon htypes =>
      exact .classType hkind hname (enabled_mono h hon)
        ((h.relaxed.hasBlacklist_eq _).trans htypes)
  | constant hcall hon hruntime hname =>
      exact .constant hcall (enabled_mono h hon)
        ((h.relaxed.isOverridden_eq _).trans hruntime) hname
  | global hkind hrestricts hnames hname =>
      exact .global hkind (restrictsGlobals_mono h hrestricts) hnames hname

private theorem Defines.of_relaxed
    (hneeds : ∀ feature, Needs n.kind feature → store.allows feature = true)
    (hconstant : category = .constants → store.allows .constants = true)
    (hdefines : Defines other n category name) : Defines store n category name := by
  cases hdefines with
  | declaration hkind hname hon =>
      exact .declaration hkind hname (enabled_of_allows h (hneeds _ (.declaration hkind)) hon)
  | classType hkind hname hon htypes =>
      have hneeded : Needs n.kind .classes := hkind ▸ .declaration .classDecl
      exact .classType hkind hname (enabled_of_allows h (hneeds _ hneeded) hon)
        ((h.relaxed.hasBlacklist_eq _).symm.trans htypes)
  | constant hcall hon hruntime hname =>
      exact .constant hcall (enabled_of_allows h (hconstant rfl) hon)
        ((h.relaxed.isOverridden_eq _).symm.trans hruntime) hname
  | global hkind hrestricts hnames hname =>
      have hneeded : Needs n.kind .globals := hkind ▸ .globalDecl
      exact .global hkind (restrictsGlobals_of_allows h (hneeds _ hneeded) hrestricts) hnames hname

theorem Readable.relaxed (hneeds : ∀ feature, Needs n.kind feature → store.allows feature = true)
    (hconstant : isDefineCall n = .ok true →
      enabled other .constants .constants .constants = true → other.isOverridden "define" = false →
        store.allows .constants = true ∨ ∃ found, definedConstant (.node n) = .ok found)
    (hreadable : Readable store n) : Readable other n := by
  refine ⟨hreadable.call, fun hcall hon hruntime => ?_, fun hkind hrestricts => ?_⟩
  · rcases hconstant hcall hon hruntime with hsame | hfound
    · exact hreadable.constant hcall (enabled_of_allows h hsame hon)
        ((h.relaxed.isOverridden_eq _).symm.trans hruntime)
    · exact hfound
  · have hneeded : Needs n.kind .globals := hkind ▸ .globalDecl
    exact hreadable.globals hkind (restrictsGlobals_of_allows h (hneeds _ hneeded) hrestricts)

variable {nodes : List Node} {key : String} {first second : Store}

theorem Harvested.relaxed (hharvested : Harvested store nodes category key) :
    Harvested other nodes category key := by
  obtain ⟨hne, n, hn, name, hdefines, hkey⟩ := hharvested
  exact ⟨hne, n, hn, name, hdefines.relaxed h, hkey⟩

def HarvestsConstants (store other : Store) (nodes : List Node) : Prop :=
  store.allows .constants = false ∧ ∃ n ∈ nodes, ∃ name, Defines other n .constants name

theorem Adds.relaxed (hfirst : Adds store nodes first) (hsecond : Adds other nodes second)
    (hdeclared : ∀ key, key ∈ second.declared ↔ key ∈ first.declared)
    (hneeds : ∀ n ∈ nodes, ∀ feature, Needs n.kind feature → store.allows feature = true) :
    first.Relaxed
      (fun category => spared category ∨
        category = .constants ∧ HarvestsConstants store other nodes) second := by
  refine h.relaxed.grow hfirst.grows hsecond.grows hdeclared fun category hlists key => ?_
  obtain ⟨hspared, hconstants⟩ := not_or.mp hlists
  rw [hsecond.allowed, hfirst.allowed, h.relaxed.allowed category hspared]
  refine or_congr_right ⟨?_, .relaxed h⟩
  rintro ⟨hne, n, hn, name, hdefines, hkey⟩
  refine ⟨hne, n, hn, name, hdefines.of_relaxed h (hneeds n hn) ?_, hkey⟩
  rintro rfl
  cases hfeature : store.allows .constants with
  | true => rfl
  | false => exact absurd ⟨rfl, hfeature, n, hn, name, hdefines⟩ hconstants

end

end OwnHarvest

end ScriptSandbox
