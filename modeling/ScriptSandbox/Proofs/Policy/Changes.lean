import ScriptSandbox.Policy.Judge
import ScriptSandbox.Proofs.Courses

/-!
# Single changes of a store

All that is ever done to a store is a sequence of single changes.  `Store.Evolves C`
relates a store to those that changes of the sort `C` can make of it.  Judging makes
changes, and if it ends in a violation, reporting that violation is the last of them.
-/

namespace ScriptSandbox

namespace Store

inductive Change where
  | whitelist (category : Category) (name : String)
  | blacklist (category : Category) (name : String)
  | setPredicate (category : Category) (predicate : Option Predicate)
  | override (name : String)
  | declare (name : String)
  | defineClass (name substitute : String)
  | defineNamespace (name : String)
  | defineAlias (name : String) (shortName : Option String)
  | defineMagicConst (name : String)
  | noteCheck (category : Category) (name : String) (extra : List Json)
  | report (violation : Violation)
  | passed (nodes : Nat)
  | failed (kind : ViolationKind)

namespace Change

def apply : Change → Store → Store
  | .whitelist category name, store => store.whitelist category name
  | .blacklist category name, store => store.blacklist category name
  | .setPredicate category predicate, store => store.setPredicate category predicate
  | .override name, store => store.override name
  | .declare name, store => store.declare name
  | .defineClass name substitute, store => store.defineClass name substitute
  | .defineNamespace name, store => store.defineNamespace name
  | .defineAlias name shortName, store => store.defineAlias name shortName
  | .defineMagicConst name, store => store.defineMagicConst name
  | .noteCheck category name extra, store => store.noteCheck category name extra
  | .report violation, store =>
      store.record
        (.violation violation.kind.name violation.message violation.context violation.line)
  | .passed nodes, store => store.record (.passed nodes)
  | .failed kind, store => store.record (.failed kind.name)

def Names : Change → Prop
  | .noteCheck _ _ _ => True
  | .defineNamespace _ => True
  | .defineAlias _ _ => True
  | _ => False

def Validates : Change → Prop
  | .declare _ => True
  | change => change.Names

/-- What the harvest of a script's own definitions does. -/
def Lists : Change → Prop
  | .whitelist _ _ => True
  | _ => False

/-- What the harvest of trusted code does short of declaring functions. -/
def Refers (change : Change) : Prop := change.Names ∨ change.Lists

/-- What any pass does. -/
def Passes (change : Change) : Prop := change.Validates ∨ change.Lists

theorem Names.validates {change : Change} (h : change.Names) : change.Validates := by
  cases change <;> first | exact h | trivial

theorem Validates.passes {change : Change} (h : change.Validates) : change.Passes := .inl h

theorem Lists.passes {change : Change} (h : change.Lists) : change.Passes := .inr h

theorem Refers.passes {change : Change} (h : change.Refers) : change.Passes :=
  h.imp Names.validates fun h => h

end Change

/-- What changes of a sort can make of a store. -/
inductive Evolves (C : Change → Prop) (store : Store) : Store → Prop where
  | refl : Evolves C store store
  | change {mid : Store} {change : Change} (h : Evolves C store mid) (hchange : C change) :
      Evolves C store (change.apply mid)

/-- Whatever can be made of a store. -/
abbrev Reaches : Store → Store → Prop := Evolves fun _ => True

namespace Evolves

variable {C D : Change → Prop} {store mid after : Store}

theorem single {change : Change} (h : C change) : Evolves C store (change.apply store) :=
  .change .refl h

protected theorem trans (h : Evolves C store mid) (h' : Evolves C mid after) :
    Evolves C store after := by
  induction h' with
  | refl => exact h
  | change _ hchange ih => exact .change ih hchange

theorem mono (h : Evolves C store after) (himp : ∀ {change}, C change → D change) :
    Evolves D store after := by
  induction h with
  | refl => exact .refl
  | change _ hchange ih => exact .change ih (himp hchange)

theorem keeps {P : Store → Prop} (h : Evolves C store after)
    (hkeep : ∀ change mid, C change → P mid → P (change.apply mid)) (hstart : P store) :
    P after := by
  induction h with
  | refl => exact hstart
  | change _ hchange ih => exact hkeep _ _ hchange ih

theorem eq {α : Type} {view : Store → α} (h : Evolves C store after)
    (hview : ∀ change mid, C change → view (change.apply mid) = view mid) :
    view after = view store :=
  h.keeps (P := fun mid => view mid = view store)
    (fun change mid hchange hmid => (hview change mid hchange).trans hmid) rfl

theorem foldl {α : Type} {step : Store → α → Store}
    (h : ∀ store item, Evolves C store (step store item)) (items : List α) (store : Store) :
    Evolves C store (items.foldl step store) := by
  induction items generalizing store with
  | nil => exact .refl
  | cons first rest ih => exact (h store first).trans (ih (step store first))

theorem changes {α : Type} (change : α → Change) (h : ∀ item, C (change item)) (items : List α)
    (store : Store) :
    Evolves C store (items.foldl (fun store item => (change item).apply store) store) :=
  foldl (fun _ item => single (h item)) items store

end Evolves

end Store

open Store (Change Evolves)

def Refusal.After (C : Change → Prop) : Refusal → Store → Store → Prop
  | .violation reported, store, after =>
      ∃ mid, Evolves C store mid ∧ after = (Change.report reported).apply mid
  | .malformed _, store, after => Evolves C store after

theorem Refusal.After.evolves {C D : Change → Prop} {refusal : Refusal} {store after : Store}
    (h : refusal.After C store after) (himp : ∀ {change}, C change → D change)
    (hreport : ∀ violation, D (.report violation)) : Evolves D store after := by
  cases refusal with
  | malformed cause => exact Evolves.mono h himp
  | violation reported =>
      obtain ⟨mid, hmid, rfl⟩ := h
      exact .change (hmid.mono himp) (hreport reported)

namespace Judge

variable {C : Change → Prop} {α β : Type}

theorem course (C : Change → Prop) : Run.Course (Evolves C) (Refusal.After C) where
  refl _ := .refl
  trans h h' := h.trans h'
  fail {refusal _ _ _} h h' := by
    cases refusal with
    | malformed cause => exact h.trans h'
    | violation violation =>
        obtain ⟨mid, hmid, rfl⟩ := h'
        exact ⟨mid, h.trans hmid, rfl⟩

def Makes (C : Change → Prop) (run : Judge α) : Prop :=
  Run.Leads (Evolves C) (Refusal.After C) run

namespace Makes

protected theorem pure (value : α) : Makes C (pure value : Judge α) :=
  Run.Leads.pure (course C) value

theorem malformed (cause : Malformed) : Makes C (throw (.malformed cause) : Judge α) :=
  Run.Leads.throw fun _ => Evolves.refl

protected theorem bind {run : Judge α} {next : α → Judge β} (hrun : Makes C run)
    (hnext : ∀ value, Makes C (next value)) : Makes C (run >>= next) :=
  Run.Leads.bind (course C) hrun hnext

protected theorem ite {c : Prop} [Decidable c] {run other : Judge α} (hrun : Makes C run)
    (hother : Makes C other) : Makes C (if c then run else other) :=
  Run.Leads.ite (fun _ => hrun) fun _ => hother

theorem get_bind {next : Store → Judge α} (h : ∀ store, Makes C (next store)) :
    Makes C (get >>= next) :=
  Run.Leads.get_bind h

theorem forM {ι : Type} {step : ι → Judge Unit} (h : ∀ item, Makes C (step item))
    (items : List ι) : Makes C (items.forM step) :=
  Run.Leads.forM (course C) h items

theorem mono {D : Change → Prop} {run : Judge α} (h : Makes C run)
    (himp : ∀ {change}, C change → D change) : Makes D run := by
  refine Run.Leads.mono h (fun h => h.mono himp) ?_
  intro refusal s t hends
  cases refusal with
  | malformed cause => exact Evolves.mono hends himp
  | violation violation =>
      obtain ⟨mid, hmid, rfl⟩ := hends
      exact ⟨mid, hmid.mono himp, rfl⟩

end Makes

theorem read_makes (result : Except Malformed α) : Makes C (read result) := by
  have hstart : ∀ cause store, Refusal.After C (.malformed cause) store store :=
    fun _ _ => Evolves.refl
  exact Run.Leads.ofExcept (course C) hstart result

theorem update_makes {change : Store → Store} (h : ∀ store, Evolves C store (change store)) :
    Makes C (update change) :=
  Run.Leads.modify h

theorem change_makes (change : Change) (h : C change) : Makes C (update change.apply) :=
  update_makes fun _ => .single h

private theorem report_makes (violation : Violation) : Makes C (report violation : Judge α) := by
  intro store
  exact ⟨store, .refl, rfl⟩

theorem reject_makes (offence : Offence) (node : Option Node) (context : Option String) :
    Makes C (reject offence node context : Judge α) :=
  report_makes _

theorem flag_makes (flag : Flag) : Makes C (Judge.flag flag) :=
  Makes.get_bind fun _ => Makes.pure _

section

variable (hC : ∀ category name extra, C (.noteCheck category name extra))

include hC

private theorem ask_makes (category : Category) (name : String) (extra : List Json) :
    Makes C (ask category name extra) := by
  refine Makes.get_bind fun store => ?_
  have hnote : Makes C (update (·.noteCheck category name extra)) :=
    change_makes (.noteCheck category name extra) (hC category name extra)
  exact hnote.bind fun _ => Makes.pure _

theorem name_makes (role : Role) (name : String) (node : Option Node) :
    Makes C (Judge.name role name node) := by
  refine (ask_makes hC role.category name role.extra).bind fun answer => ?_
  exact Makes.ite (reject_makes _ _ _) (Makes.pure _)

theorem nonEmptyName_makes (role : Role) (text : String) (node : Option Node) :
    Makes C (nonEmptyName role text node) :=
  Makes.ite (reject_makes _ _ _) (name_makes hC role text node)

end

theorem require_makes (feature : Feature) (offence : Offence) (node : Node) :
    Makes C (require feature offence node) :=
  Makes.get_bind fun _ => Makes.ite (reject_makes _ _ _) (Makes.pure _)

end Judge

end ScriptSandbox
