import ScriptSandbox.Proofs.Enforce.Substitution
import ScriptSandbox.Proofs.Gate.Validation

/-!
# Substituted classes

Every reference to a class that validation comes to and lets pass is judged by the outgoing
name.  It gives way to a copy exactly if the class has a substitute, and how the class was
spelled makes no difference.
-/

namespace ScriptSandbox

open Judge

namespace Gate

variable {nodes : List Node} {store : Store} {offer : Offer Store}

private theorem source_of_offer (h : offer ∈ Enforce.visitor.offers (nodes.map .node) store) :
    ∃ source ∈ nodes.flatMap Node.visited, source.Walked Enforce.KeepsNames offer.node := by
  have hform : ∀ n, Run.Yields (fun _ => True) (Walk.inside [Enforce.visitor] n)
      (n.Walked Enforce.KeepsNames) :=
    fun n => Walk.inside_walks Enforce.keepsNames_answers n fun _ _ => trivial
  rw [← visitedIn_map_node]
  exact (Walk.offers_offered (nodes.map .node) store hform).source h

theorem offer_new (hloaded : Loaded nodes)
    (h : offer ∈ Enforce.visitor.offers (nodes.map .node) store) :
    offer.node.generated = false := by
  obtain ⟨source, hsource, hwalked⟩ := source_of_offer h
  rw [hwalked.sameOutline.generated]
  exact hloaded.new source hsource

private theorem offer_reached (hloaded : Loaded nodes)
    (h : offer ∈ Enforce.visitor.offers (nodes.map .node) store) :
    Reaches store offer.state := by
  obtain ⟨before, later, hoffers⟩ := List.append_of_mem h
  have hends := Walk.offers_end Enforce.visitor (nodes.map .node) store
  refine Enforce.reaches_of_judges (hends.of_append hoffers) fun other hother => ?_
  exact offer_new hloaded (by rw [hoffers]; exact List.mem_append_left _ hother)

/--
What validation makes of the references to classes that it comes to.  The class that is
judged is the one that was written; a reference that passes gives way to a copy for the
substitute, or stays if there is none, and the guarded tree is put together so.  It is the
outgoing name that has to be accepted, and all spellings of a class share one decision.
-/
theorem classes_substituted (hloaded : Loaded nodes) (store : Store) :
    (∀ offer ∈ Enforce.visitor.offers (nodes.map .node) store, ∀ role,
      offer.node.kind.classRole? = some role →
        (∃ source ∈ nodes.flatMap Node.visited, Walk.SameOutline source offer.node ∧
          ∀ own name, source.WritesClass own name →
            ∃ written, offer.node.WritesClass written name ∧
              written.kind = own.kind ∧ written.attributes = own.attributes) ∧
        ∀ verdict after,
          (Enforce.visitor.leave offer.node).exec offer.state = (.ok verdict, after) →
            ∃ written name, offer.node.WritesClass written name ∧
              ClassVerdict store role offer.node written name verdict) ∧
    (∀ guarded after, (validate (nodes.map .node)).exec store = (.ok guarded, after) →
      ItemsWalked (fun n verdict => ∀ role, n.kind.classRole? = some role →
        ∃ written name, n.WritesClass written name ∧
          ClassVerdict store role n written name verdict) (nodes.map .node) guarded) ∧
    ∀ role n written name, n.Refers role written name → ∀ mid, Reaches store mid →
      ((Enforce.visitor.leave n).Passes mid ↔
        (∃ noted, mid.Prepares role noted) ∧ store.Accepts role (store.substituteFor name)) ∧
      ∀ m respelled spelled, m.Refers role respelled spelled →
        Category.classes.normalize spelled = Category.classes.normalize name →
          store.substitute? spelled = store.substitute? name ∧
          ∀ verdict after, (Enforce.visitor.leave n).exec mid = (.ok verdict, after) →
            ClassVerdict store role n written name verdict ∧
            ∃ answer, (Enforce.visitor.leave m).exec mid = (.ok answer, after) ∧
              ClassVerdict store role m respelled spelled answer := by
  refine ⟨?offered, ?placed, ?spelled⟩
  case offered =>
    intro offer hoffer role hrole
    obtain ⟨source, hsource, hwalked⟩ := source_of_offer hoffer
    refine ⟨⟨source, hsource, hwalked.sameOutline, fun own name hwrites =>
      Enforce.writesClass_of_walked hwalked hwrites⟩, fun verdict after hexec => ?_⟩
    have hjudged : Enforce.Judged store offer.node verdict :=
      ⟨offer_new hloaded hoffer, offer.state, after, offer_reached hloaded hoffer, hexec⟩
    exact hjudged.refers hrole
  case placed =>
    intro guarded after hrun
    exact (Enforce.validate_judged hloaded.new hrun).mono fun _ _ hjudged _ => hjudged.refers
  case spelled =>
    intro role n written name hn mid hmid
    refine ⟨?_, fun m respelled spelled hm hsame =>
      ⟨store.substitute?_congr hsame, fun verdict after hexec => ?_⟩⟩
    · rw [Enforce.reference_passes_iff hn, hmid.samePolicy.accepts_outgoing]
    · have hrespelled := Enforce.leave_respelled hn hm hsame hexec
      have hjudged : Enforce.Judged store n verdict := ⟨hn.new, mid, after, hmid, hexec⟩
      have hjudged' : Enforce.Judged store m _ := ⟨hm.new, mid, after, hmid, hrespelled⟩
      exact ⟨hjudged.verdict hn, _, hrespelled, hjudged'.verdict hm⟩

end Gate

namespace Sample

def creating : Json :=
  .arr [entry "Expr_New" [("class", nameEntry "TEXT"), ("args", .arr [])],
    entry "Expr_New" [("class", nameEntry "Other"), ("args", .arr [])]]

def creatingStore : Store :=
  (Store.empty (Options.default.setFlag (.allow .objects) true) false).defineClass "Text" "SafeText"

private theorem loaded_creating : Loaded (nodesOf creating) :=
  ⟨true, creating, rfl⟩

def className? (n : Node) : Option String :=
  (n.field "class").name?.bind fun written => written.nameText.toOption

private theorem creating_passes : ∃ offer ∈ Enforce.visitor.offers (treeOf creating) creatingStore,
    offer.node.kind = .expression .new ∧ className? offer.node = some "TEXT" ∧
      (Enforce.visitor.leave offer.node).Passes offer.state := by
  have hany : (Enforce.visitor.offers (treeOf creating) creatingStore).any (fun offer =>
      offer.node.kind = .expression .new && className? offer.node = some "TEXT" &&
        ((Enforce.visitor.leave offer.node).exec offer.state).1.isOk) = true := by
    decide +kernel
  obtain ⟨offer, hoffer, hall⟩ := List.any_eq_true.mp hany
  simp only [Bool.and_eq_true, decide_eq_true_eq] at hall
  exact ⟨offer, hoffer, hall.1.1, hall.1.2, hall.2⟩

end Sample

namespace Gate

theorem classes_substituted_of_creating :
    ∃ offer ∈ Enforce.visitor.offers (Sample.treeOf Sample.creating) Sample.creatingStore,
      ∃ copy written after, offer.node.kind = .expression .new ∧
        offer.node.WritesClass written "TEXT" ∧
        (Enforce.visitor.leave offer.node).exec offer.state = (.ok (.replace copy), after) ∧
        offer.node.CopiesForClass written "SafeText" copy ∧
        Sample.creatingStore.Accepts .type "SafeText" := by
  obtain ⟨offer, hoffer, hkind, hclass, hpasses⟩ := Sample.creating_passes
  obtain ⟨verdict, after, hexec⟩ := exists_of_isOk hpasses
  have hrole : offer.node.kind.classRole? = some .type := by rw [hkind]; rfl
  obtain ⟨hoffered, -, -⟩ := classes_substituted Sample.loaded_creating Sample.creatingStore
  obtain ⟨-, hjudged⟩ := hoffered offer hoffer .type hrole
  obtain ⟨written, name, hwrites, hverdict⟩ := hjudged verdict after hexec
  rw [Sample.className?, hwrites.class_eq, Option.bind_some, hwrites.text] at hclass
  cases hclass
  cases hverdict with
  | stays hnone => exact absurd hnone (by decide)
  | copied hsome hcopy haccepts =>
      cases hsome.symm.trans (show Sample.creatingStore.substitute? "TEXT" = some "SafeText" by decide)
      exact ⟨offer, hoffer, _, written, after, hkind, hwrites, hexec, hcopy, haccepts⟩

end Gate

end ScriptSandbox
