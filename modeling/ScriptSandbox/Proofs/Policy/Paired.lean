import ScriptSandbox.Enforce.Runtime
import ScriptSandbox.Proofs.Policy.Frame
import ScriptSandbox.Proofs.Tree.AlikeReaders

/-!
# Judging two nodes side by side

A `Judge.Pairing` is a relation between stores that permit the same, kept by everything
that judging does to both.  Judging nodes that are alike, against stores so related,
gives violations that are alike: of one kind, with one message, at nodes that are alike.
-/

namespace ScriptSandbox

namespace Store

def withoutLog (store : Store) : Store := { store with log := [] }

@[simp] theorem withoutLog_record (store : Store) (entry : AuditEntry) :
    (store.record entry).withoutLog = store.withoutLog := by
  unfold record
  split <;> rfl

@[simp] theorem withoutLog_noteCheck (store : Store) (category : Category) (name : String)
    (extra : List Json) :
    (store.noteCheck category name extra).withoutLog =
      store.withoutLog.noteCheck category name extra := by
  unfold noteCheck
  exact apply_ite withoutLog _ _ _

theorem noteCheck_congr (store : Store) {category : Category} {name other : String}
    (extra : List Json) (h : category.normalize other = category.normalize name) :
    store.noteCheck category other extra = store.noteCheck category name extra := by
  simp only [noteCheck, h]

theorem withoutLog_whitelist (store : Store) (category : Category) (name : String) :
    (store.whitelist category name).withoutLog =
      (store.withoutLog.whitelist category name).withoutLog := by
  simp only [whitelist, apply_ite withoutLog, withoutLog_record]
  rfl

private theorem withoutLog_defineNamespace (store : Store) (name : String) :
    (store.defineNamespace name).withoutLog =
      (store.withoutLog.defineNamespace name).withoutLog := by
  simp only [defineNamespace, apply_ite withoutLog, withoutLog_record]
  rfl

private theorem withoutLog_defineAlias (store : Store) (name : String) (shortName : Option String) :
    (store.defineAlias name shortName).withoutLog =
      (store.withoutLog.defineAlias name shortName).withoutLog := by
  simp only [defineAlias, apply_ite withoutLog, withoutLog_record]
  rfl

def SameButLog (store other : Store) : Prop := other.withoutLog = store.withoutLog

theorem SamePolicy.symm {store other : Store} (h : store.SamePolicy other) :
    other.SamePolicy store :=
  ⟨h.options.symm, h.allowed.symm, h.denied.symm, h.predicates.symm, h.overrides.symm,
    h.classes.symm, h.magicConsts.symm⟩

namespace SameButLog

variable {store other : Store} (h : store.SameButLog other)

include h

theorem read_eq {α : Type} (view : Store → α)
    (hview : ∀ store : Store, view store = view store.withoutLog) : view other = view store := by
  rw [hview other, hview store, h]

theorem change (change : Store → Store)
    (hchange : ∀ store : Store, (change store).withoutLog = (change store.withoutLog).withoutLog) :
    (change store).SameButLog (change other) := by
  unfold SameButLog at h ⊢
  rw [hchange other, hchange store, h]

theorem samePolicy : store.SamePolicy other :=
  ⟨h.read_eq Store.options fun _ => rfl, h.read_eq Store.allowed fun _ => rfl,
    h.read_eq Store.denied fun _ => rfl, h.read_eq Store.predicates fun _ => rfl,
    h.read_eq Store.overrides fun _ => rfl, h.read_eq Store.classes fun _ => rfl,
    h.read_eq Store.magicConsts fun _ => rfl⟩

theorem declared_eq : other.declared = store.declared :=
  h.read_eq Store.declared fun _ => rfl

end SameButLog

end Store

/-- Stores so related permit the same, and stay so related when both are judged against. -/
structure Judge.Pairing (I : Store → Store → Prop) : Prop where
  samePolicy : ∀ {s t}, I s t → s.SamePolicy t
  record : ∀ {s t} (entry other : AuditEntry), I s t → I (s.record entry) (t.record other)
  noteCheck : ∀ {s t} (category : Category) (name : String) (extra : List Json), I s t →
    I (s.noteCheck category name extra) (t.noteCheck category name extra)
  declare : ∀ {s t} (name : String), I s t → I (s.declare name) (t.declare name)
  defineNamespace : ∀ {s t} (name : String), I s t →
    I (s.defineNamespace name) (t.defineNamespace name)
  defineAlias : ∀ {s t} (name : String) (shortName : Option String), I s t →
    I (s.defineAlias name shortName) (t.defineAlias name shortName)

theorem Store.pairing_sameButLog : Judge.Pairing Store.SameButLog where
  samePolicy h := h.samePolicy
  record entry other h := by simpa [Store.SameButLog] using h
  noteCheck category name extra h :=
    h.change (·.noteCheck category name extra) fun store => by
      rw [Store.withoutLog_noteCheck, Store.withoutLog_noteCheck]
      rfl
  declare name h := h.change (·.declare name) fun _ => rfl
  defineNamespace name h :=
    h.change (·.defineNamespace name) (·.withoutLog_defineNamespace name)
  defineAlias name shortName h :=
    h.change (·.defineAlias name shortName) (·.withoutLog_defineAlias name shortName)

theorem Store.pairing_samePolicy : Judge.Pairing Store.SamePolicy where
  samePolicy h := h
  record entry other h :=
    (samePolicy_record _ entry).symm.trans (h.trans (samePolicy_record _ other))
  noteCheck category name extra h :=
    (samePolicy_noteCheck _ category name extra).symm.trans
      (h.trans (samePolicy_noteCheck _ category name extra))
  declare name h :=
    (samePolicy_declare _ name).symm.trans (h.trans (samePolicy_declare _ name))
  defineNamespace name h :=
    (samePolicy_defineNamespace _ name).symm.trans (h.trans (samePolicy_defineNamespace _ name))
  defineAlias name shortName h :=
    (samePolicy_defineAlias _ name shortName).symm.trans
      (h.trans (samePolicy_defineAlias _ name shortName))

/-- The functions that the sandbox looks for: the one that defines constants, and built-ins. -/
def watchedFunctions : List String := "define" :: (definedFuncs ++ argumentFuncs)

/-- Names of called functions that may differ are one name to the policy. -/
structure Likeness.Faithful (L : Likeness) : Prop where
  normalize_eq : ∀ {a b}, L.callee a b →
    Category.functions.normalize b = Category.functions.normalize a
  lower_eq : ∀ {a b}, L.callee a b →
    Text.lower a ∈ watchedFunctions ∨ Text.lower b ∈ watchedFunctions → Text.lower b = Text.lower a

def Likeness.SameText (L : Likeness) (text other : String) : Prop :=
  other = text ∨ L.callee text other

structure Violation.Alike (L : Likeness) (violation other : Violation) : Prop where
  message : other.message = violation.message
  kind : other.kind = violation.kind
  context : Option.Rel L.SameText violation.context other.context
  node : Option.Rel (Node.Alike L false) violation.node other.node

inductive Refusal.Alike (L : Likeness) : Refusal → Refusal → Prop where
  | violation {violation other : Violation} (h : violation.Alike L other) :
      Refusal.Alike L (.violation violation) (.violation other)
  | malformed (cause : Malformed) : Refusal.Alike L (.malformed cause) (.malformed cause)

namespace Judge

def Paired {α β : Type} (I : Store → Store → Prop) (L : Likeness) (run : Judge α)
    (other : Judge β) (Q : α → β → Prop) : Prop :=
  Run.Paired I (Refusal.Alike L) run other Q

variable {I : Store → Store → Prop} {L : Likeness} {n m : Node} {α β γ δ : Type}
  {Q : α → β → Prop} {R : γ → δ → Prop}

theorem read_paired {result : Except Malformed α} {other : Except Malformed β}
    (h : EndsAlike (· = ·) Q result other) : Paired I L (read result) (read other) Q := by
  apply Run.Paired.ofExcept h
  intro cause cause' hcause
  subst hcause
  exact .malformed cause

theorem read_same {result other : Except Malformed α} (h : other = result) :
    Paired I L (read result) (read other) (· = ·) :=
  read_paired (EndsAlike.of_eq h)

theorem update_paired {change change' : Store → Store}
    (h : ∀ s t, I s t → I (change s) (change' t)) :
    Paired I L (update change) (update change') fun _ _ => True :=
  Run.Paired.modify h

variable (h : Pairing I)

include h

private theorem report_paired {violation other : Violation} (hviolation : violation.Alike L other) :
    Paired I L (report violation : Judge α) (report other : Judge β) Q := by
  apply (update_paired fun _ _ hst => h.record _ _ hst).bind
  intro _ _ _
  exact Run.Paired.throw (.violation hviolation)

private theorem rejectName_paired (offence : Offence) (hn : n.Alike L false m) {text other : String}
    (htext : L.SameText text other) :
    Paired I L (reject offence (some n) (some text) : Judge α)
      (reject offence (some m) (some other) : Judge β) Q :=
  report_paired h ⟨rfl, rfl, .some htext, .some hn⟩

theorem reject_paired (offence : Offence) (hn : n.Alike L false m) (context : Option String) :
    Paired I L (reject offence (some n) context : Judge α)
      (reject offence (some m) context : Judge β) Q := by
  refine report_paired h ⟨rfl, rfl, ?_, .some hn⟩
  cases context with
  | none => exact .none
  | some text => exact .some (.inl rfl)

private theorem ask_paired (category : Category) {name other : String} (extra : List Json)
    (hname : category.normalize other = category.normalize name) :
    Paired I L (ask category name extra) (ask category other extra) (· = ·) := by
  apply Run.Paired.get.bind
  intro s t hst
  have hnote : ∀ s t, I s t →
      I (s.noteCheck category name extra) (t.noteCheck category other extra) := by
    intro s t hst
    rw [Store.noteCheck_congr t extra hname]
    exact h.noteCheck category name extra hst
  apply (update_paired hnote).bind
  intro _ _ _
  refine Run.Paired.pure ?_
  rw [← (h.samePolicy hst).check_eq]
  simp only [Store.check, hname]

theorem reject_bind_paired (offence : Offence) (hn : n.Alike L false m) (context : Option String)
    (next : α → Judge γ) (next' : β → Judge δ) :
    Paired I L (reject offence (some n) context >>= next)
      (reject offence (some m) context >>= next') R :=
  (reject_paired h offence hn context).bind (Q := fun _ _ => False) fun _ _ hfalse => hfalse.elim

theorem spelledName_paired (role : Role) (hn : n.Alike L false m) {name other : String}
    (hname : role.category.normalize other = role.category.normalize name)
    (htext : L.SameText name other) :
    Paired I L (Judge.name role name (some n)) (Judge.name role other (some m)) fun _ _ => True := by
  apply (ask_paired h role.category role.extra hname).bind
  intro answer answer' hanswer
  subst hanswer
  apply Run.Paired.ite Iff.rfl
  · intro _
    exact rejectName_paired h _ hn htext
  · intro _
    exact Run.Paired.pure trivial

theorem name_paired (role : Role) (name : String) (hn : n.Alike L false m) :
    Paired I L (Judge.name role name (some n)) (Judge.name role name (some m)) fun _ _ => True :=
  spelledName_paired h role hn rfl (.inl rfl)

theorem require_paired (feature : Feature) (offence : Offence) (hn : n.Alike L false m) :
    Paired I L (require feature offence n) (require feature offence m) fun _ _ => True := by
  apply Run.Paired.get.bind
  intro s t hst
  rw [(h.samePolicy hst).allows_eq]
  apply Run.Paired.ite Iff.rfl
  · intro _
    exact reject_paired h offence hn none
  · intro _
    exact Run.Paired.pure trivial

theorem flag_paired (flag : Flag) :
    Paired I L (Judge.flag flag) (Judge.flag flag) (· = ·) := by
  apply Run.Paired.get.bind
  intro s t hst
  exact Run.Paired.pure ((h.samePolicy hst).flag_eq flag).symm

theorem nonEmptyName_paired (role : Role) (text : String) (hn : n.Alike L false m) :
    Paired I L (nonEmptyName role text (some n)) (nonEmptyName role text (some m))
      fun _ _ => True := by
  apply Run.Paired.ite Iff.rfl
  · intro _
    exact reject_paired h _ hn _
  · intro _
    exact name_paired h role text hn

end Judge

end ScriptSandbox
