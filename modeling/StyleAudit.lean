import StyleAudit.Main
import StyleAudit.Proofs.Audit.Accounting
import StyleAudit.Proofs.Audit.Announced
import StyleAudit.Proofs.Audit.Cancelled
import StyleAudit.Proofs.Audit.Completion
import StyleAudit.Proofs.Audit.Independence
import StyleAudit.Proofs.Audit.Isolation
import StyleAudit.Proofs.Audit.Sitewise
import StyleAudit.Proofs.Audit.Source
import StyleAudit.Proofs.Audit.Trouble
import StyleAudit.Proofs.Audit.Trust
import StyleAudit.Proofs.Audit.Verdict
import StyleAudit.Proofs.Audit.WholeFile
import StyleAudit.Proofs.CommandLine.Start
import StyleAudit.Proofs.Expression.Equality
import StyleAudit.Proofs.Nesting.Separate
import StyleAudit.Proofs.Pipes.Transparent
import StyleAudit.Proofs.Ranges.Evaluation
import StyleAudit.Proofs.Report.Kept
import StyleAudit.Proofs.Report.Selection
import StyleAudit.Proofs.Rule.ElseDemand
import StyleAudit.Proofs.Rule.Extraction
import StyleAudit.Proofs.Rule.Footprint
import StyleAudit.Proofs.Rule.FunctionArrangement
import StyleAudit.Proofs.Rule.FunctionVerdict
import StyleAudit.Proofs.Rule.ImportReach
import StyleAudit.Proofs.Rule.ImportScope
import StyleAudit.Proofs.Rule.LookUp
import StyleAudit.Proofs.Rule.MatchedSite
import StyleAudit.Proofs.Rule.NestedUpdate
import StyleAudit.Proofs.Rule.NumberedNames
import StyleAudit.Proofs.Rule.OptionPattern
import StyleAudit.Proofs.Rule.OwnQualifier
import StyleAudit.Proofs.Rule.PredicateName
import StyleAudit.Proofs.Rule.ShapeFallback
import StyleAudit.Proofs.Tree.Grammar
