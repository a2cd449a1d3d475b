import GraphInspector.Processing.Lemmas.Resolution
import GraphInspector.Processing.Lemmas.BoundarySeal
import GraphInspector.Processing.Lemmas.VspcCrossing
import GraphInspector.Processing.Lemmas.VspcDrive
import GraphInspector.Processing.Lemmas.VspcIndexes
import GraphInspector.ApiCore.Lemmas.Installation
import GraphInspector.ApiIngress.Lemmas.Contract
import GraphInspector.ApiCore.Lemmas.Ladder
import GraphInspector.ApiCore.Lemmas.Floor
import GraphInspector.ApiCore.Lemmas.GraphCache
import GraphInspector.ApiCore.Lemmas.SchedulerRun
import GraphInspector.ApiCore.Lemmas.WireSize
import GraphInspector.ApiModel.Lemmas.Indexes
import GraphInspector.Storage.Lemmas.Projection
import GraphInspector.Storage.Lemmas.Replacement
import GraphInspector.Processing.Lemmas.OrphanTopology
import GraphInspector.System.BlockHandling
import GraphInspector.System.Commits
