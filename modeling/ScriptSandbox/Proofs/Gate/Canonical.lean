import ScriptSandbox.Proofs.Gate.Trail
import ScriptSandbox.Proofs.Policy.Canonical

/-!
# Stored names stay canonical

However a store is made, and whatever operations and passes it goes through, aborted ones
included, its lists and tables hold nothing but names in normal spelling.
-/

namespace ScriptSandbox.Gate

/-- How a store is made, with or without a log. -/
inductive Construction where
  | fresh (options : Options) (audited : Bool)
  | configured (config : Config) (audited : Bool)

namespace Construction

def store : Construction → Store
  | .fresh options audited => Store.empty options audited
  | .configured config audited => Store.ofConfig config audited

private theorem canonical (construction : Construction) : construction.store.Canonical := by
  cases construction with
  | fresh options audited => exact Store.canonical_empty options audited
  | configured config audited =>
      have hempty := Store.canonical_empty config.options audited
      exact hempty.evolves (Store.ofConfig_reaches config audited)

end Construction

/--
The names of every store that can come about are in normal spelling, and it answers the same
for a name and for its normal spelling.  This holds while a pass is under way, too.
-/
theorem stores_canonical (construction : Construction) (steps : List Step) :
    ((afterSteps steps construction.store).Canonical ∧
        (afterSteps steps construction.store).AnswersAlike) ∧
      ∀ pass : Pass, ∀ offer ∈ pass.offers (afterSteps steps construction.store),
        offer.state.Canonical ∧ offer.state.AnswersAlike := by
  have hsteps : (afterSteps steps construction.store).Canonical :=
    construction.canonical.evolves (afterSteps_reaches steps construction.store)
  refine ⟨⟨hsteps, Store.answersAlike _⟩, fun pass offer hoffer => ?_⟩
  exact ⟨hsteps.evolves (pass.offer_evolves _ hoffer), offer.state.answersAlike⟩

end ScriptSandbox.Gate
