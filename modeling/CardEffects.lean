import CardEffects.Battle
import CardEffects.Main
import CardEffects.Wire.Combatant
import CardEffects.Proofs.Plan.Settlement
import CardEffects.Proofs.Execution
import CardEffects.Proofs.Ledger.Account
import CardEffects.Proofs.Ledger.Conditions
import CardEffects.Proofs.Ledger.HitPoints
import CardEffects.Proofs.Cancellation
import CardEffects.Proofs.Upkeep.Battle
import CardEffects.Proofs.Replay.Session
import CardEffects.Proofs.Reading.RoundTrip
import CardEffects.Proofs.Plan.Sides
import CardEffects.Proofs.Reading.Gate
import CardEffects.Proofs.Reading.Targets
import CardEffects.Proofs.AttackGate
import CardEffects.Proofs.Coverage.Sharing
import CardEffects.Proofs.Reading.Account
import CardEffects.Proofs.Wire.RoundTrip
import CardEffects.Proofs.ExtraEnergy
import CardEffects.Proofs.BetweenTurns
import CardEffects.Proofs.Truthful
import CardEffects.Proofs.FlipCounts
import CardEffects.Proofs.Handlers
import CardEffects.Proofs.Chance.Discard
import CardEffects.Proofs.Chance.Fairness
import CardEffects.Proofs.Reading.BenchBonus
import CardEffects.Proofs.Reading.ListBonus
import CardEffects.Proofs.Reading.BySentence
import CardEffects.Proofs.Reading.Typography
import CardEffects.Proofs.Ledger.Gains
import CardEffects.Proofs.Plan.Reordering
import CardEffects.Proofs.Config.TableOrder
import CardEffects.Proofs.Coverage.Accounting
import CardEffects.Proofs.Reading.NameFilters
import CardEffects.Proofs.Ledger.Multiset
import CardEffects.Proofs.Modifiers
import CardEffects.Proofs.Loading
import CardEffects.Proofs.StatusCommand
import CardEffects.Proofs.Replay.Sequence
