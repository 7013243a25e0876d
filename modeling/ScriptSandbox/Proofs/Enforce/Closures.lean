import ScriptSandbox.Proofs.Enforce.Sound
import ScriptSandbox.Proofs.Enforce.Stability
import ScriptSandbox.Proofs.Walk.Results

/-!
# Closures import the runtime

Judging replaces a closure by a copy whose last use is that of the runtime.  The uses before
it are those of the closure: each was judged before the closure was, so none of them names
the runtime.  What judging puts in the place of other nodes holds closures only from their
fields, and copies of these.
-/

namespace ScriptSandbox

open Judge

namespace Value

def IsUse (value : Value) : Prop :=
  ∃ use, value = .node use ∧ use.kind = .expression .closureUse

instance : (value : Value) → Decidable value.IsUse
  | .node use => decidable_of_iff (use.kind = .expression .closureUse)
      ⟨fun h => ⟨use, rfl, h⟩, fun ⟨_, huse, h⟩ => by cases huse; exact h⟩
  | .scalar _ | .obj _ | .list _ | .pair _ _ => isFalse nofun

def UsesVariable (name : String) (value : Value) : Prop :=
  ∃ use, value = .node use ∧ use.field "var" = .str name

def SameUse (own kept : Value) : Prop :=
  ∃ use other, own = .node use ∧ kept = .node other ∧ Walk.SameOutline use other ∧
    (nodesInFields use.fields = [] → other = use)

end Value

/-- The last use imports the variable, and all before it are a closure's own. -/
structure Node.ImportsLast (name : String) (own : List Value) (n : Node) : Prop where
  uses : ∃ kept last, n.field "uses" = .list (kept ++ [.node last]) ∧
    List.Forall₂ Value.SameUse own kept ∧ (∀ use ∈ kept, ¬ use.UsesVariable name) ∧
    last.kind = .expression .closureUse ∧ last.field "var" = .str name ∧ last.isSynthetic = true

variable {store : Store} {n : Node}

def KeepsUse (handle : String) (n : Node) (verdict : Verdict) : Prop :=
  n.kind = .expression .closureUse → verdict = .keep ∧ n.field "var" ≠ .str handle

private theorem Outcome.keepsUse {verdict : Verdict} (h : Outcome store n verdict) :
    KeepsUse store.handle n verdict := by
  intro hkind
  have hrule : n.kind.rule = .closureUse := by
    rw [hkind]
    rfl
  cases h with
  | kept hmeets =>
      rw [Node.Meets, hrule] at hmeets
      refine ⟨rfl, fun hvar => hmeets ?_⟩
      rw [hvar]
      rfl
  | called hcall => cases hcall <;> simp_all
  | guarded hother => simp [hrule] at hother
  | imported hother => simp [hrule] at hother
  | substituted hother => simp [hrule] at hother
  | flattened hother => simp [hrule] at hother
  | dropped hother => simp [hrule] at hother

structure KeepUses (handle : String) (own kept : List Value) : Prop where
  same : List.Forall₂ Value.SameUse own kept
  free : ∀ use ∈ kept, ¬ use.UsesVariable handle

private theorem ItemsWalked.keepUses {handle : String} : ∀ {own walked : List Value},
    ItemsWalked (KeepsUse handle) own walked → (∀ item ∈ own, item.IsUse) →
      KeepUses handle own walked
  | _, _, .nil, _ => ⟨.nil, by simp⟩
  | .node n :: _, _, .node hinside hverdict hplaced hrest, huses => by
      obtain ⟨⟨use, hn, hkind⟩, hothers⟩ := List.forall_mem_cons.mp huses
      cases hn
      obtain ⟨rfl, hvar⟩ := hverdict (hinside.same.1.trans hkind)
      cases hplaced
      obtain ⟨hsame, hfree⟩ := hrest.keepUses hothers
      refine ⟨.cons ⟨n, _, rfl, rfl, hinside.sameOutline, fun hnone => ?_⟩ hsame,
        List.forall_mem_cons.mpr ⟨?_, hfree⟩⟩
      · cases hinside with
        | mk hfields => rw [hfields.eq_of_nodes_eq_nil hnone]
      · rintro ⟨_, heq, hname⟩
        cases heq
        exact hvar hname
  | item :: _, _, .passed hitem _, huses => by
      obtain ⟨use, rfl, _⟩ := huses item List.mem_cons_self
      cases hitem

private theorem Value.items_eq_nil_of_uses {value : Value} {items : List Value}
    (hnone : value.nodes = [])
    (hitems : value.itemsOrNone = .ok items) (huses : ∀ item ∈ items, item.IsUse) : items = [] := by
  refine List.eq_nil_iff_forall_not_mem.mpr fun item hitem => ?_
  obtain ⟨use, rfl, _⟩ := huses item hitem
  have hmem := Value.mem_nodes_of_itemsOrNone hitems hitem use.self_mem_nodes
  rw [hnone] at hmem
  cases hmem

private theorem Value.Walked.keepUses {handle : String} {value walked : Value} {items : List Value}
    (h : value.Walked (KeepsUse handle) walked) (hitems : walked.itemsOrNone = .ok items)
    (huses : ∀ own, value.itemsOrNone = .ok own → ∀ item ∈ own, item.IsUse) :
    ∃ own, value.itemsOrNone = .ok own ∧ KeepUses handle own items := by
  have hfree : ∀ {other : Value}, other.nodes = [] → other.itemsOrNone = .ok items →
      (∀ own, other.itemsOrNone = .ok own → ∀ item ∈ own, item.IsUse) →
      ∃ own, other.itemsOrNone = .ok own ∧ KeepUses handle own items := by
    intro other hnone hread hall
    have hnil := Value.items_eq_nil_of_uses hnone hread (hall items hread)
    subst hnil
    exact ⟨[], hread, .nil, by simp⟩
  cases h with
  | @list own walked hwalked =>
      have hread : ∀ others : List Value, (Value.list others).itemsOrNone = .ok others := by
        intro others
        cases others <;> rfl
      rw [hread] at hitems
      cases hitems
      exact ⟨own, hread own, hwalked.keepUses (huses own (hread own))⟩
  | @node n inner placed verdict =>
      obtain ⟨use, hentry, _⟩ := huses _ rfl _ List.mem_cons_self
      cases hentry
  | scalar value => exact hfree rfl hitems huses
  | obj fields => exact hfree rfl hitems huses
  | pair name value =>
      obtain ⟨use, hentry, _⟩ := huses _ rfl _ List.mem_cons_self
      cases hentry

theorem KeepUses.usesVariable {handle : String} {own kept : List Value}
    (h : KeepUses handle own kept) : Enforce.usesVariable handle kept = .ok false := by
  obtain ⟨hsame, hfree⟩ := h
  induction hsame with
  | nil => rfl
  | cons huse _ ih =>
      obtain ⟨hvar, hothers⟩ := List.forall_mem_cons.mp hfree
      obtain ⟨_, use, _, rfl, _⟩ := huse
      have hname : ¬ (use.field "var").text? = some handle :=
        fun htext => hvar ⟨use, rfl, Value.text?_eq_some_iff.mp htext⟩
      change (if (use.field "var").text? = some handle then .ok true else _ :
        Except Malformed Bool) = _
      rw [if_neg hname]
      exact ih hothers

def Node.LeftUses (handle : String) (source n : Node) : Prop :=
  ∀ uses, n.fieldItems "uses" = .ok uses →
    ∃ own, source.fieldItems "uses" = .ok own ∧ KeepUses handle own uses

namespace Enforce

private theorem answers_keepUse {Source : Node → Prop}
    (hnew : ∀ n, Source n → n.generated = false) :
    Walk.Answers visitor (Reaches store) (KeepsUse store.handle) Source := by
  intro source n hsource _ hgenerated
  exact (node_yields (hgenerated.trans (hnew source hsource))).mono
    fun verdict houtcome => houtcome.keepsUse

theorem leftUses_of_leaves {source : Node} (hnew : ∀ m ∈ source.nodes, m.generated = false)
    (huses : ∀ own, source.fieldItems "uses" = .ok own → ∀ item ∈ own, item.IsUse)
    (hleaves : Walk.Leaves visitor (Reaches store) source n) :
    source.LeftUses store.handle n := by
  obtain ⟨before, after, hbefore, hexec⟩ := hleaves
  have hinside : Run.Yields (Reaches store) (Walk.inside [visitor] source)
      (source.Walked (KeepsUse store.handle)) := by
    refine Walk.inside_walks (answers_keepUse fun m hm => hnew m hm) source fun m hm => ?_
    obtain ⟨entry, hentry, hm⟩ := mem_visitedInFields.mp hm
    exact Node.mem_nodes.mpr (.inr ⟨entry, hentry, entry.2.visited_sublist.subset hm⟩)
  have hwalked := (hinside.ok hbefore hexec).2
  intro uses hread
  exact (hwalked.field "uses").keepUses hread huses

theorem node_imports {source : Node} (hnew : n.generated = false) (hrule : n.kind.rule = .closure)
    (hleft : source.LeftUses store.handle n) :
    Run.Yields (Reaches store) (node n) fun verdict =>
      ∃ own uses, source.fieldItems "uses" = .ok own ∧ n.fieldItems "uses" = .ok uses ∧
        KeepUses store.handle own uses ∧
        verdict = .replace (n.withHandle store.handle uses) := by
  rw [node_of_rule hnew hrule]
  refine (closure_imports n).mono fun verdict himports => ?_
  cases himports with
  | @kept uses huses hused =>
      obtain ⟨own, _, hkept⟩ := hleft uses huses
      rw [hkept.usesVariable] at hused
      cases hused
  | @imported uses _ huses _ =>
      obtain ⟨own, hown, hkept⟩ := hleft uses huses
      exact ⟨own, uses, hown, huses, hkept, rfl⟩

end Enforce

def Node.Imported (store : Store) (Source : Node → Prop) (n : Node) : Prop :=
  ∃ source origin own uses, Source source ∧
    Walk.Leaves Enforce.visitor (Reaches store) source origin ∧
    source.fieldItems "uses" = .ok own ∧ KeepUses store.handle own uses ∧
    (n = origin.withHandle store.handle uses ∨ n = (origin.withHandle store.handle uses).fresh)

def Node.ImportsIfClosure (store : Store) (Source : Node → Prop) (n : Node) : Prop :=
  n.kind = .expression .closure → n.Imported store Source

theorem Node.ImportsIfClosure.fresh {Source : Node → Prop} (h : n.ImportsIfClosure store Source) :
    n.fresh.ImportsIfClosure store Source := by
  intro hkind
  rw [Node.kind_fresh] at hkind
  obtain ⟨source, origin, own, uses, hsource, hleaves, hown, hkept, hn⟩ := h hkind
  refine ⟨source, origin, own, uses, hsource, hleaves, hown, hkept, .inr ?_⟩
  obtain rfl | rfl := hn
  · rfl
  · exact Node.fresh_fresh _

theorem Enforce.settles_closures {Source : Node → Prop}
    (hnew : ∀ source, Source source → ∀ m ∈ source.nodes, m.generated = false)
    (huses : ∀ source, Source source → source.kind = .expression .closure →
      ∀ own, source.fieldItems "uses" = .ok own → ∀ item ∈ own, item.IsUse) :
    Walk.Settles visitor (Reaches store) (Value.Each (Node.ImportsIfClosure store Source))
      Source where
  free _ hnodes := Value.each_of_nodes_eq_nil hnodes
  leave source n hsource hleaves hsettled := by
    have hgenerated : n.generated = false :=
      hleaves.sameOutline.generated.trans (hnew source hsource source source.self_mem_nodes)
    have houtcome : Run.Yields (Reaches store) (visitor.leave n) (Outcome store n) :=
      node_yields hgenerated
    have hother : ∀ m : Node, m.kind ≠ .expression .closure →
        (∀ which, m.kind ≠ .statement which) → m.ImportsIfClosure store Source :=
      fun m hkind _ hclosure => absurd hclosure hkind
    by_cases hkind : n.kind = .expression .closure
    · have hrule : n.kind.rule = .closure := by
        rw [hkind]
        rfl
      have hclosure : source.kind = .expression .closure :=
        hleaves.sameOutline.kind.symm.trans hkind
      have hleft := leftUses_of_leaves (hnew source hsource) (huses source hsource hclosure) hleaves
      refine (houtcome.and (node_imports hgenerated hrule hleft)).mono fun verdict hverdict => ?_
      obtain ⟨hbecomes, own, uses, hown, _, hkept, rfl⟩ := hverdict
      refine hbecomes.places_each hother (fun _ => Node.ImportsIfClosure.fresh) hsettled nofun ?_
      intro others _ _ hcopy
      rw [← Verdict.replace.inj hcopy]
      exact fun _ => ⟨source, n, own, uses, hsource, hleaves, hown, hkept, .inl rfl⟩
    · refine houtcome.mono fun verdict hbecomes => ?_
      refine hbecomes.places_each hother (fun _ => Node.ImportsIfClosure.fresh) hsettled ?_ ?_
      · exact fun _ hclosure => absurd hclosure hkind
      · exact fun _ _ _ _ hclosure => absurd hclosure hkind

private theorem Node.importsLast_withHandle {own uses : List Value}
    (h : KeepUses store.handle own uses) :
    (n.withHandle store.handle uses).ImportsLast store.handle own where
  uses := ⟨uses, Generated.handleUse store.handle, Node.field_setField_self _ _ _, h.same, h.free,
    rfl, rfl, rfl⟩

theorem Value.SameUse.fresh {own kept : Value} (hraw : own.isRaw = true) (h : own.SameUse kept) :
    own.SameUse kept.fresh := by
  obtain ⟨use, other, rfl, rfl, houtline, hsame⟩ := h
  have hgenerated : use.generated = false := Node.generated_of_isRaw hraw
  refine ⟨use, other.fresh, rfl, rfl, ⟨?_, ?_, ?_, fun name scalar => ?_⟩, fun hnone => ?_⟩
  · simp [houtline.kind]
  · simp [houtline.attributes]
  · simp [hgenerated]
  · simp [houtline.scalar]
  · rw [hsame hnone]
    exact Node.fresh_of_isRaw hraw

theorem Value.UsesVariable.of_fresh {name : String} {value : Value}
    (h : value.fresh.UsesVariable name) : value.UsesVariable name := by
  obtain ⟨use, huse, hvar⟩ := h
  obtain ⟨written, rfl, rfl⟩ := Value.fresh_eq_node_iff.mp huse
  rw [Node.field_fresh, Value.fresh_eq_scalar_iff] at hvar
  exact ⟨written, rfl, hvar⟩

theorem Node.ImportsLast.fresh {name : String} {own : List Value}
    (hraw : ∀ item ∈ own, item.isRaw = true) (h : n.ImportsLast name own) :
    n.fresh.ImportsLast name own where
  uses := by
    obtain ⟨kept, last, huses, hsame, hfree, hkind, hvar, hmark⟩ := h.uses
    refine ⟨freshItems kept, last.fresh, ?_, ?_, ?_, ?_, ?_, ?_⟩
    · simp [huses, Value.fresh, freshItems_eq_map]
    · rw [freshItems_eq_map, List.forall₂_map_right_iff]
      clear huses hfree h
      induction hsame with
      | nil => exact .nil
      | cons huse _ ih =>
          obtain ⟨hfirst, hrest⟩ := List.forall_mem_cons.mp hraw
          exact .cons (huse.fresh hfirst) (ih hrest)
    · rw [freshItems_eq_map]
      exact List.forall_mem_map.mpr fun use huse hname => hfree use huse hname.of_fresh
    · simp [hkind]
    · simp [hvar]
    · simp [hmark]

@[simp] theorem Node.stemsFrom_withHandle (handle : String) (uses : List Value) :
    (n.withHandle handle uses).StemsFrom n where
  kind := rfl
  attributes := rfl
  field _ _ huses := congrArg Value.fresh (Node.field_setField_ne _ _ huses)

private theorem Node.isRaw_of_fieldItems {source use : Node} {name : String} {items : List Value}
    (hraw : source.isRaw = true) (hitems : source.fieldItems name = .ok items)
    (huse : .node use ∈ items) : use.isRaw = true := by
  have hfields : ∀ entry ∈ source.fields, entry.2.Each fun m => m.isRaw = true :=
    (Node.forall_mem_nodes.mp (Node.isRaw_of_mem hraw)).2
  exact (Node.field_each hfields name).items hitems _ huse use use.self_mem_nodes

private theorem KeepUses.exists_node {handle : String} {own kept : List Value}
    (h : KeepUses handle own kept) : ∀ item ∈ own, ∃ use, item = .node use := by
  have hsame := h.same
  clear h
  induction hsame with
  | nil => simp
  | cons huse _ ih =>
      obtain ⟨use, _, heq, _⟩ := huse
      exact List.forall_mem_cons.mpr ⟨⟨use, heq⟩, ih⟩

theorem Node.Imported.importsLast {Source : Node → Prop}
    (hraw : ∀ source, Source source → source.isRaw = true) (h : n.Imported store Source) :
    ∃ source origin own, Source source ∧
      Walk.Leaves Enforce.visitor (Reaches store) source origin ∧ n.StemsFrom origin ∧
      source.fieldItems "uses" = .ok own ∧ n.ImportsLast store.handle own := by
  obtain ⟨source, origin, own, uses, hsource, hleaves, hown, hkept, hn⟩ := h
  have hownRaw : ∀ item ∈ own, item.isRaw = true := by
    intro item hitem
    obtain ⟨use, rfl⟩ := hkept.exists_node item hitem
    exact Node.isRaw_of_fieldItems (hraw source hsource) hown hitem
  refine ⟨source, origin, own, hsource, hleaves, ?_, hown, ?_⟩
  · obtain rfl | rfl := hn
    · exact Node.stemsFrom_withHandle _ _
    · exact (Node.stemsFrom_withHandle _ _).fresh
  · obtain rfl | rfl := hn
    · exact Node.importsLast_withHandle hkept
    · exact (Node.importsLast_withHandle hkept).fresh hownRaw

end ScriptSandbox
