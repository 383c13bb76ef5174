import Apar.Cases.QueueReports
import Apar.Defense.ThresholdSelection
import Apar.Demo.RowSelection
import Apar.Evaluation.ArmColumns
import Apar.Evaluation.CheckpointAgreement
import Apar.Evaluation.ChronologicalSplits
import Apar.Evaluation.ColdIdentities
import Apar.Evaluation.IsolationForest
import Apar.Evaluation.LegitimateRuns
import Apar.Evaluation.Promotion
import Apar.Evaluation.RegimeKinds
import Apar.Evaluation.RuleReplay
import Apar.Evaluation.V4Scoring
import Apar.EvaluationHidden.OneShot
import Apar.EvaluationHidden.Verdicts
import Apar.EvaluationHidden.WorkerInventory
import Apar.Features.OnlineReplay
import Apar.Features.SentinelWindows
import Apar.Generators.AdaptiveLevels
import Apar.Redteam.AdaptivePolicy
import Apar.Redteam.DefenderRules
import Apar.Redteam.PolicySearch
import Apar.Redteam.ValueAccountings
import Apar.Runs.Undisclosed
import Apar.Simulator.LedgerPrecision
import Apar.Simulator.Rails.A2ARuns
import Apar.Simulator.Rails.Tampering
import Apar.Storage.PublishOnce
import Apar.Trust.Reload
import Apar.Trust.SignedEncoding
