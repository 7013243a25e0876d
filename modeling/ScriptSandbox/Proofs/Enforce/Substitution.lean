import ScriptSandbox.Proofs.Enforce.Judged
import ScriptSandbox.Proofs.Enforce.PairedVerdicts
import ScriptSandbox.Proofs.Json.Names

/-!
# References to classes

An object creation, a static call and a fetch of a class constant or a static property refer
to a class by a written name.  Each is judged by the outgoing name, which is the substitute
of the class if there is one and the written name if not.  A reference to a class with a
substitute gives way to a copy that differs from it in the name of the class alone.
-/

namespace ScriptSandbox

/-- The role in which a node of the kind names a class, if it refers to one. -/
def Kind.classRole? : Kind → Option Role
  | .expression .new => some .type
  | .expression .staticCall | .expression .classConstFetch | .expression .staticPropertyFetch =>
      some .classAccess
  | _ => none

private theorem Kind.rule_of_classRole? {kind : Kind} {role : Role}
    (h : kind.classRole? = some role) :
    (role = .type ∧ kind.rule = .instantiation) ∨
      (role = .classAccess ∧ kind.rule = .classAccess) := by
  unfold Kind.classRole? at h
  split at h
  · cases h
    exact .inl ⟨rfl, rfl⟩
  · cases h
    exact .inr ⟨rfl, rfl⟩
  · cases h
    exact .inr ⟨rfl, rfl⟩
  · cases h
    exact .inr ⟨rfl, rfl⟩
  · cases h

/-- The class of the node is given by a written name, and this is how the name reads. -/
structure Node.WritesClass (n written : Node) (name : String) : Prop where
  class_eq : (n.field "class").name? = some written
  text : written.nameText = .ok name

/-- The node refers to a class in the role, by the written name, and is judged. -/
structure Node.Refers (n : Node) (role : Role) (written : Node) (name : String) : Prop where
  new : n.generated = false
  role : n.kind.classRole? = some role
  writes : n.WritesClass written name

/-- The copy is the node, but for a generated name that reads as the other class. -/
structure Node.CopiesForClass (n written : Node) (name : String) (copy : Node) : Prop where
  kind : copy.kind = n.kind
  attributes : copy.attributes = n.attributes
  names : Record.names copy.fields = Record.names n.fields
  others : ∀ field ≠ "class", copy.field field = n.field field
  renamed : ∃ other, copy.field "class" = .node other ∧ other.kind = written.kind ∧
    other.attributes = Node.marked written.attributes ∧ other.nameText = .ok name

/-- What judging does with a reference to a class that the policy lets pass. -/
inductive ClassVerdict (store : Store) (role : Role) (n written : Node) (name : String) :
    Verdict → Prop where
  | stays (hnone : store.substitute? name = none) (haccepts : store.Accepts role name) :
      ClassVerdict store role n written name .keep
  | copied {substitute : String} {copy : Node} (hsome : store.substitute? name = some substitute)
      (hcopy : n.CopiesForClass written substitute copy) (haccepts : store.Accepts role substitute) :
      ClassVerdict store role n written name (.replace copy)

namespace Store

/-- What becomes of a reference to the class by the written name. -/
def referred (store : Store) (name : String) (n written : Node) : Verdict :=
  match store.substitute? name with
  | none => .keep
  | some substitute => .replace (n.withClass substitute written)

/-- What is asked before a class is looked at in the role, and how it is noted. -/
inductive Prepares (store : Store) : Role → Store → Prop where
  | access : Prepares store .classAccess store
  | type (hallow : store.allows .objects = true) (hkeyword : store.Accepts .keyword "new") :
      Prepares store .type (store.noteCheck .keywords "new" [])

theorem Prepares.samePolicy {store mid : Store} {role : Role} (h : store.Prepares role mid) :
    store.SamePolicy mid := by
  cases h with
  | access => exact .refl store
  | type => exact store.samePolicy_noteCheck _ _ _

end Store

variable {store : Store} {role : Role} {n written : Node} {name : String}

private theorem Node.WritesClass.mem_names (h : n.WritesClass written name) :
    "class" ∈ Record.names n.fields := by
  have hclass := h.class_eq
  by_contra hnot
  rw [Node.field, Record.get?_eq_none_iff.mpr hnot] at hclass
  cases hclass

private theorem Node.WritesClass.copies_withClass (h : n.WritesClass written name)
    (substitute : String) :
    n.CopiesForClass written substitute (n.withClass substitute written) where
  kind := rfl
  attributes := rfl
  names := by
    rw [Node.withClass, Node.setField, Record.names_set, if_pos h.mem_names]
  others field hfield := Node.field_setField_ne _ _ hfield
  renamed := by
    refine ⟨Generated.renamed substitute written, Node.field_setField_self _ _ _, rfl, rfl, ?_⟩
    exact Node.nameText_of_parts rfl

theorem Node.WritesClass.verdict (h : n.WritesClass written name)
    (haccepts : store.Accepts role (store.substituteFor name)) :
    ClassVerdict store role n written name (store.referred name n written) := by
  rw [Store.substituteFor] at haccepts
  rw [Store.referred]
  cases hsubstitute : store.substitute? name with
  | none =>
      rw [hsubstitute] at haccepts
      exact .stays hsubstitute haccepts
  | some substitute =>
      rw [hsubstitute] at haccepts
      exact .copied hsubstitute (h.copies_withClass substitute) haccepts

theorem Node.WritesClass.unique {other : Node} {spelled : String} (h : n.WritesClass written name)
    (h' : n.WritesClass other spelled) : written = other ∧ name = spelled := by
  cases h.class_eq.symm.trans h'.class_eq
  cases h.text.symm.trans h'.text
  exact ⟨rfl, rfl⟩

namespace Store

theorem SamePolicy.accepts_outgoing {other : Store} (h : store.SamePolicy other) (role : Role)
    (name : String) :
    other.Accepts role (other.substituteFor name) ↔ store.Accepts role (store.substituteFor name) := by
  rw [h.substituteFor_eq, Accepts, h.check_eq, Accepts]

theorem SamePolicy.referred_eq {other : Store} (h : store.SamePolicy other) (name : String)
    (n written : Node) : other.referred name n written = store.referred name n written := by
  rw [referred, h.substitute?_eq, referred]

variable (store) {spelled : String}

private theorem check_congr {category : Category} (extra : List Json)
    (h : category.normalize spelled = category.normalize name) :
    store.check category spelled extra = store.check category name extra := by
  simp only [check, h]

theorem substitute?_congr (h : Category.classes.normalize spelled = Category.classes.normalize name) :
    store.substitute? spelled = store.substitute? name := by
  rw [substitute?, h, substitute?]

private theorem normalize_substituteFor {kind : Kind} (hrole : kind.classRole? = some role)
    (h : Category.classes.normalize spelled = Category.classes.normalize name) :
    role.category.normalize (store.substituteFor spelled) =
      role.category.normalize (store.substituteFor name) := by
  rw [substituteFor, substituteFor, store.substitute?_congr h]
  cases store.substitute? name with
  | some substitute => rfl
  | none =>
      obtain ⟨rfl, -⟩ | ⟨rfl, -⟩ := Kind.rule_of_classRole? hrole
      · exact h
      · exact h

end Store

namespace Enforce

private theorem exec_resolveClass (h : n.WritesClass written name) :
    (resolveClass n).exec store =
      (.ok (store.referred name n written, store.substituteFor name), store) := by
  have hread : (Judge.read written.nameText).exec store = (.ok name, store) := by
    rw [h.text]
    rfl
  rw [resolveClass, h.class_eq]
  change (Judge.read written.nameText >>= _ : Judge (Verdict × String)).exec store = _
  rw [Run.exec_bind, hread, Store.referred, Store.substituteFor]
  change (match store.substitute? name with | none => _ | some _ => _ :
    Judge (Verdict × String)).exec store = _
  cases store.substitute? name with
  | none => rfl
  | some substitute => rfl

private theorem writesClass_of_exec {resolved : Verdict × String} {after : Store}
    (h : (resolveClass n).exec store = (.ok resolved, after)) :
    ∃ written name, n.WritesClass written name := by
  cases (resolveClass_yields n).ok .start h |>.2 with
  | written hwritten hname => exact ⟨_, _, hwritten, hname⟩
  | substituted hwritten hname => exact ⟨_, _, hwritten, hname⟩

def refer (role : Role) (n : Node) : Judge Verdict := do
  let (verdict, name) ← resolveClass n
  Judge.name role name (some n)
  pure verdict

private theorem exec_refer_eq_ok {verdict : Verdict} {after : Store} :
    (refer role n).exec store = (.ok verdict, after) ↔
      ∃ written name, n.WritesClass written name ∧
        store.Accepts role (store.substituteFor name) ∧
        verdict = store.referred name n written ∧
        after = store.noteCheck role.category (store.substituteFor name) role.extra := by
  constructor
  · intro h
    obtain ⟨resolved, mid, hresolve, h⟩ := Run.exec_bind_eq_ok.mp h
    obtain ⟨written, name, hwrites⟩ := writesClass_of_exec hresolve
    cases (exec_resolveClass hwrites).symm.trans hresolve
    obtain ⟨_, noted, hname, h⟩ := Run.exec_bind_eq_ok.mp h
    obtain ⟨haccepts, rfl⟩ := Judge.exec_name_eq_ok.mp hname
    cases h
    exact ⟨written, name, hwrites, haccepts, rfl, rfl⟩
  · rintro ⟨written, name, hwrites, haccepts, rfl, rfl⟩
    rw [refer, Run.exec_bind, exec_resolveClass hwrites]
    change (Judge.name role _ (some n) >>= _ : Judge Verdict).exec store = _
    rw [Run.exec_bind, Judge.exec_name _ haccepts]
    rfl

private theorem exec_instantiation_eq_ok {verdict : Verdict} {after : Store} :
    (instantiation n).exec store = (.ok verdict, after) ↔
      store.allows .objects = true ∧ store.Accepts .keyword "new" ∧
        (refer .type n).exec (store.noteCheck .keywords "new" []) = (.ok verdict, after) := by
  constructor
  · intro h
    obtain ⟨_, mid, hrequire, hrest⟩ := Run.exec_bind_eq_ok.mp h
    obtain ⟨hallow, rfl⟩ := Judge.exec_require_eq_ok.mp hrequire
    obtain ⟨_, noted, hkeyword, hrefer⟩ := Run.exec_bind_eq_ok.mp hrest
    obtain ⟨haccepts, rfl⟩ := Judge.exec_name_eq_ok.mp hkeyword
    exact ⟨hallow, haccepts, hrefer⟩
  · rintro ⟨hallow, haccepts, h⟩
    exact Run.exec_bind_eq_ok.mpr ⟨(), store, Judge.exec_require_eq_ok.mpr ⟨hallow, rfl⟩,
      Run.exec_bind_eq_ok.mpr ⟨(), _, Judge.exec_name_eq_ok.mpr ⟨haccepts, rfl⟩, h⟩⟩

private theorem leave_reference_eq_ok {verdict : Verdict} {after : Store}
    (hnew : n.generated = false)
    (hrole : n.kind.classRole? = some role) :
    (visitor.leave n).exec store = (.ok verdict, after) ↔
      ∃ mid, store.Prepares role mid ∧ (refer role n).exec mid = (.ok verdict, after) := by
  obtain ⟨rfl, hrule⟩ | ⟨rfl, hrule⟩ := Kind.rule_of_classRole? hrole
  · have hleave : visitor.leave n = instantiation n := node_of_rule hnew hrule
    rw [hleave, exec_instantiation_eq_ok]
    constructor
    · rintro ⟨hallow, hkeyword, h⟩
      exact ⟨_, .type hallow hkeyword, h⟩
    · rintro ⟨mid, hprepares, h⟩
      cases hprepares with
      | type hallow hkeyword => exact ⟨hallow, hkeyword, h⟩
  · have hleave : visitor.leave n = refer .classAccess n := node_of_rule hnew hrule
    rw [hleave]
    constructor
    · intro h
      exact ⟨store, .access, h⟩
    · rintro ⟨mid, hprepares, h⟩
      cases hprepares with
      | access => exact h

theorem reference_passes_iff (hn : n.Refers role written name) :
    (visitor.leave n).Passes store ↔
      (∃ mid, store.Prepares role mid) ∧ store.Accepts role (store.substituteFor name) := by
  constructor
  · intro h
    obtain ⟨verdict, after, hexec⟩ := exists_of_isOk h
    obtain ⟨mid, hprepares, hrefer⟩ := (leave_reference_eq_ok hn.new hn.role).mp hexec
    obtain ⟨_, _, hwrites, haccepts, -, -⟩ := exec_refer_eq_ok.mp hrefer
    obtain ⟨rfl, rfl⟩ := hn.writes.unique hwrites
    exact ⟨⟨mid, hprepares⟩, (hprepares.samePolicy.accepts_outgoing _ _).mp haccepts⟩
  · rintro ⟨⟨mid, hprepares⟩, haccepts⟩
    have hrefer := exec_refer_eq_ok.mpr ⟨written, name, hn.writes,
      (hprepares.samePolicy.accepts_outgoing _ _).mpr haccepts, rfl, rfl⟩
    rw [Run.Passes, (leave_reference_eq_ok hn.new hn.role).mpr ⟨mid, hprepares, hrefer⟩]
    rfl

theorem Judged.refers {verdict : Verdict} (h : Judged store n verdict)
    (hrole : n.kind.classRole? = some role) :
    ∃ written name, n.WritesClass written name ∧ ClassVerdict store role n written name verdict := by
  obtain ⟨before, after, hbefore, hexec⟩ := h.exec
  obtain ⟨mid, hprepares, hrefer⟩ := (leave_reference_eq_ok h.new hrole).mp hexec
  obtain ⟨written, name, hwrites, haccepts, rfl, -⟩ := exec_refer_eq_ok.mp hrefer
  have hpolicy := hbefore.samePolicy.trans hprepares.samePolicy
  rw [hpolicy.referred_eq]
  exact ⟨written, name, hwrites, hwrites.verdict ((hpolicy.accepts_outgoing _ _).mp haccepts)⟩

theorem Judged.verdict {verdict : Verdict} (h : Judged store n verdict)
    (hrefers : n.Refers role written name) : ClassVerdict store role n written name verdict := by
  obtain ⟨_, _, hwrites, hverdict⟩ := h.refers hrefers.role
  obtain ⟨rfl, rfl⟩ := hrefers.writes.unique hwrites
  exact hverdict

variable {m respelled : Node} {spelled : String} {mid after : Store} {verdict : Verdict}

theorem leave_respelled (hn : n.Refers role written name) (hm : m.Refers role respelled spelled)
    (hsame : Category.classes.normalize spelled = Category.classes.normalize name)
    (h : (visitor.leave n).exec store = (.ok verdict, after)) :
    (visitor.leave m).exec store = (.ok (store.referred spelled m respelled), after) := by
  obtain ⟨mid, hprepares, hrefer⟩ := (leave_reference_eq_ok hn.new hn.role).mp h
  obtain ⟨_, _, hwrites, haccepts, -, rfl⟩ := exec_refer_eq_ok.mp hrefer
  obtain ⟨rfl, rfl⟩ := hn.writes.unique hwrites
  have hnormal := mid.normalize_substituteFor hn.role hsame
  rw [leave_reference_eq_ok hm.new hm.role, ← hprepares.samePolicy.referred_eq]
  refine ⟨mid, hprepares, exec_refer_eq_ok.mpr ⟨respelled, spelled, hm.writes, ?_, rfl, ?_⟩⟩
  · rwa [Store.Accepts, mid.check_congr _ hnormal]
  · rw [mid.noteCheck_congr _ hnormal]

end Enforce

namespace Enforce

def KeepsNames (n : Node) (verdict : Verdict) : Prop :=
  n.kind.isName = true → verdict = .keep

theorem keepsNames_answers :
    Walk.Answers visitor (fun _ => True) KeepsNames (fun _ => True) := by
  intro source n _ _ _
  by_cases hname : n.kind.isName = true
  · have hleave : visitor.leave n = pure .keep := node_of_isName hname
    rw [hleave]
    exact Run.Yields.pure fun _ => rfl
  · exact (Run.Yields.any _).mono fun _ _ h => absurd h hname

variable {source : Node}

theorem writesClass_of_walked (h : source.Walked KeepsNames n)
    (hwrites : source.WritesClass written name) :
    ∃ left, n.WritesClass left name ∧ left.kind = written.kind ∧
      left.attributes = written.attributes := by
  obtain ⟨hclass, hname⟩ := Value.name?_eq_some_iff.mp hwrites.class_eq
  have hfield := h.field "class"
  rw [hclass] at hfield
  generalize hleft : n.field "class" = value at hfield
  cases hfield with
  | @node _ left placed verdict hinside hverdict hplaced =>
      have houtline := hinside.sameOutline
      have hkept : left.kind.isName = true := by rw [houtline.kind, hname]
      cases hverdict hkept
      cases hplaced
      obtain ⟨parts, hmember, htext⟩ := bind_eq_ok.mp hwrites.text
      obtain ⟨texts, htexts, _⟩ := bind_eq_ok.mp htext
      cases hmember
      have hparts : left.field "parts" = written.field "parts" :=
        (hinside.field "parts").eq_of_nodes_eq_nil (Value.nodes_eq_nil_of_texts htexts)
      have htext : left.nameText = written.nameText := by
        change (do .ok (String.intercalate "\\" (← (left.field "parts").texts)) :
          Except Malformed String) = _
        rw [hparts]
        rfl
      refine ⟨left, ⟨Value.name?_eq_some_iff.mpr ⟨hleft, hkept⟩, ?_⟩, houtline.kind,
        houtline.attributes⟩
      rw [htext, hwrites.text]

end Enforce

end ScriptSandbox
