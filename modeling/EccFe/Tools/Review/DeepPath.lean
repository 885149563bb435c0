/-
EccFe.Tools.Review.DeepPath — the deep path that the Yosys precheck reports, from
`fecompiler/tools/review/structural_probe.py`.

The end of the path is the cell that came up last in the sort of the graph. Which cell that is does
not depend on the order exactly when one cell alone ends a longest path
(`deep_path_stable_iff`).
-/
import EccFe.Tools.Review.ModuleGraph

namespace EccFe.Tools.Review

open Python Engine RtlInputs RtlOwnership ToolLog Search

/-! ## 1. The metrics of a netlist -/

/-- The modules of a netlist that are dicts, under their names in the file. -/
def netlistModules (netlist : Dict) : List (String × Dict) := namedDicts (netlist.dictAt "modules")

/-- `_int_or_zero(item.get(key))`, for a field that holds an integer or is missing. -/
def numberAt (item : Dict) (key : String) : Int := (intAt item key).getD 0

def maxInt (items : List Dict) (key : String) : Int := ((items.map (numberAt · key)).max?).getD 0

/-- `a or b` for integers. -/
def orInt (a b : Int) : Int := if a = 0 then b else a

def deepCombDepthThreshold : Int := 16

/-- The dicts of a list field. -/
def listAt (item : Dict) (key : String) : List Dict :=
  (item.getD key (.arr [])).items.map Json.asDict

section

-- The orders of the sets, module by module.
variable (orders : String → Kahn.Order String) (netlist : Dict)

/-- The summaries in the order of the modules. -/
def summaries : List Dict :=
  (netlistModules netlist).map fun entry =>
    moduleGraphSummary entry.2 (orders entry.1) (stripBackslashes entry.1.toList)

/-- `high_fanout_nets` or `high_fanin_cells`. -/
def collected (field key : String) : List Dict :=
  sortDescending key ((summaries orders netlist).flatMap fun summary => listAt summary field)

/-- The entry of a module in `deep_comb_paths`. -/
def deepPath (summary : Dict) : Dict :=
  [("module", summary.getD "module" .null), ("depth", summary.getD "max_comb_depth" (.int 0)),
    ("endpoint", summary.getD "deepest_endpoint" (.str "")),
    ("source", summary.getD "deepest_source" (.str "")),
    ("line", summary.getD "deepest_line" (.int 0)),
    ("column", summary.getD "deepest_column" (.int 0))]

def deepCombPaths : List Dict :=
  sortDescending "depth" (((summaries orders netlist).filter fun summary =>
    deepCombDepthThreshold ≤ numberAt summary "max_comb_depth").map deepPath)

/-- `cycles`. -/
def combCycleModules : List Json :=
  ((summaries orders netlist).filter fun summary =>
    (summary.getD "comb_cycle" .null).truthy).map fun summary => summary.getD "module" .null

/-- The order of the keys of two summaries, as tuples. -/
def summaryLe (a b : Dict) : Bool :=
  let depths := (numberAt a "max_comb_depth", numberAt b "max_comb_depth")
  let fanouts := (numberAt a "max_fanout", numberAt b "max_fanout")
  decide (depths.1 < depths.2 ∨ depths.1 = depths.2 ∧ (fanouts.1 < fanouts.2 ∨
    fanouts.1 = fanouts.2 ∧ numberAt a "cell_count" ≤ numberAt b "cell_count"))

def structuralMetricsFromNetlist : Dict :=
  let modules := (summaries orders netlist).mergeSort fun a b => summaryLe b a
  let fanouts := collected orders netlist "high_fanout_nets" "fanout"
  let fanins := collected orders netlist "high_fanin_cells" "fanin"
  let deep := deepCombPaths orders netlist
  [("netlist_source", .str "yosys_write_json"),
    ("max_fanout", .int (orInt (maxInt fanouts "fanout") (maxInt modules "max_fanout"))),
    ("max_fanin", .int (orInt (maxInt fanins "fanin") (maxInt modules "max_fanin"))),
    ("max_comb_depth", .int (orInt (maxInt deep "depth") (maxInt modules "max_comb_depth"))),
    ("high_fanout_nets", .arr ((fanouts.take 20).map .obj)),
    ("high_fanin_cells", .arr ((fanins.take 20).map .obj)),
    ("deep_comb_paths", .arr ((deep.take 20).map .obj)),
    ("comb_cycle_modules", .arr ((combCycleModules orders netlist).take 20)),
    ("module_structure", .arr ((modules.take 40).map .obj))]

end

/-! ## 2. The issue -/

def issue (severity category title detail path : String) (line column : Int) (evidence : Dict)
    (recommendation : String) : Dict :=
  [("severity", .str severity), ("category", .str category), ("title", .str title),
    ("detail", .str detail), ("source", .str path), ("line", .int line), ("column", .int column),
    ("evidence", .obj evidence), ("recommendation", .str recommendation)]

def firstMetricItem (metrics : Dict) (key : String) : Dict :=
  match (metrics.getD key .null).items.head? with
  | some (.obj item) => item
  | _ => []

/-- The issue of `_issues_from_probe` about the deep path. -/
def deepPathIssue (metrics : Dict) : Option Dict :=
  if deepCombDepthThreshold ≤ numberAt metrics "max_comb_depth" then
    let worst := firstMetricItem metrics "deep_comb_paths"
    some (issue "warning" "timing" "Deep combinational path candidate"
      "The Yosys structural graph found a long combinational cell chain before a sequential boundary."
      (worst.textAt "source") (numberAt worst "line") (numberAt worst "column")
      [("module", worst.getD "module" (.str "")), ("endpoint", worst.getD "endpoint" (.str "")),
        ("depth", worst.getD "depth" (metrics.getD "max_comb_depth" .null))]
      "Pipeline or rebalance the indicated module, especially decode, bypass, CSR, branch, or memory address logic.")
  else none

/-- The issue in the report of a run that also read the statistics `stat`. -/
def reportedDeepPath (orders : String → Kahn.Order String) (stat netlist : Dict) : Option Dict :=
  (deepPathIssue (stat.update (structuralMetricsFromNetlist orders netlist))).bind normalizeProbeIssue

/-! ## 3. Deepest cells -/

section

variable (module : Dict)

/-- A combinational cell behind no cycle. -/
def Unblocked (name : String) : Prop :=
  Combinational module name ∧
    ∀ c, Relation.TransGen (Feeds module) c c → ¬Relation.ReflTransGen (Feeds module) c name

/-- A longest path, among the cells behind no cycle, ends at the cell. -/
def EndsDeepest (name : String) : Prop :=
  Unblocked module name ∧ ∃ path, IsPath module path ∧ path.getLast? = some name ∧
    ∀ other path', Unblocked module other → IsPath module path' → path'.getLast? = some other →
      path'.length ≤ path.length

/-- The fields of a summary about the end of the deepest path. -/
def deepestFields : List String :=
  ["deepest_endpoint", "deepest_source", "deepest_line", "deepest_column"]

/-- No order of the sets changes the end of a deepest path, its place or the issue about it. -/
def DeepPathStable (netlist : Dict) : Prop :=
  ∀ orders orders' : String → Kahn.Order String,
    (∀ entry ∈ netlistModules netlist, ∀ field ∈ deepestFields,
      (moduleGraphSummary entry.2 (orders entry.1) (stripBackslashes entry.1.toList)).get field =
        (moduleGraphSummary entry.2 (orders' entry.1) (stripBackslashes entry.1.toList)).get field) ∧
    ∀ (env : Env) (workspace : Workspace) (stat : Dict),
      (reportedDeepPath orders stat netlist).bind (issueFingerprint env workspace) =
        (reportedDeepPath orders' stat netlist).bind (issueFingerprint env workspace)

variable {module}

theorem deepest_combGraph {name : String} :
    Kahn.Deepest (combGraph module) name ↔ EndsDeepest module name := by
  have hclear : ∀ a, Kahn.Clear (combGraph module) a ↔ Unblocked module a := by
    intro a
    rw [Kahn.Clear, edge_combGraph]
    exact and_congr_left fun _ => mem_combCells
  rw [Kahn.Deepest, EndsDeepest, hclear]
  refine and_congr_right fun _ => ?_
  constructor
  · rintro ⟨n, hn, hmax⟩
    obtain ⟨path, hpath, rfl, hlast⟩ := endsAt_combGraph.mp hn
    refine ⟨path, hpath, hlast, fun other path' hother hpath' hlast' => ?_⟩
    exact hmax other _ ((hclear other).mpr hother) (endsAt_combGraph.mpr ⟨path', hpath', rfl, hlast'⟩)
  · rintro ⟨path, hpath, hlast, hmax⟩
    refine ⟨path.length, endsAt_combGraph.mpr ⟨path, hpath, rfl, hlast⟩, fun other m hother hm => ?_⟩
    obtain ⟨path', hpath', rfl, hlast'⟩ := endsAt_combGraph.mp hm
    exact hmax other path' ((hclear other).mp hother) hpath' hlast'

/-- The endpoint is the end of a deepest path; if every cell is behind a cycle, it is no cell. -/
theorem last_sorted (order : Kahn.Order String) : EndsDeepest module (sorted module order).last ∨
    ((sorted module order).last = "" ∧ ∀ name, ¬EndsDeepest module name) := by
  rcases Kahn.last_deepest ((combGraph module).reorder order) "" with hdeepest | ⟨hlast, hnone⟩
  · rw [(alike_combGraph order).deepest, deepest_combGraph] at hdeepest
    exact .inl hdeepest
  · refine .inr ⟨hlast, fun name hname => hnone name ?_⟩
    rw [(alike_combGraph order).clear]
    exact (deepest_combGraph.mpr hname).1

/-- Any cell that ends a deepest path is the endpoint under some order. -/
theorem exists_order_endpoint {name : String} (h : EndsDeepest module name) :
    ∃ order, (sorted module order).last = name :=
  Kahn.exists_order_last (combGraph module) "" (deepest_combGraph.mpr h)

theorem last_eq (hunique : ∀ a b, EndsDeepest module a → EndsDeepest module b → a = b)
    (order order' : Kahn.Order String) : (sorted module order).last = (sorted module order').last := by
  rcases @last_sorted module order with h | ⟨hlast, hnone⟩
  · rcases @last_sorted module order' with h' | ⟨-, hnone'⟩
    · exact hunique _ _ h h'
    · exact absurd h (hnone' _)
  · rcases @last_sorted module order' with h' | ⟨hlast', -⟩
    · exact absurd h' (hnone _)
    · rw [hlast, hlast']

/-- But for the endpoint nothing in a summary depends on the order. -/
theorem moduleGraphSummary_congr {order order' : Kahn.Order String}
    (h : (sorted module order).last = (sorted module order').last) (moduleName : String) :
    moduleGraphSummary module order moduleName = moduleGraphSummary module order' moduleName := by
  have hdepth : (sorted module order).depth = (sorted module order').depth :=
    ((alike_combGraph order).depth_eq "").trans ((alike_combGraph order').depth_eq "").symm
  have hcycle : combCycle module order = combCycle module order' :=
    Bool.eq_iff_iff.mpr ((combCycle_iff order).trans (combCycle_iff order').symm)
  unfold moduleGraphSummary maxCombDepth
  rw [h, hdepth, hcycle]

end

/-! ## 4. Stability -/

/-- The end of the deepest path of every module, its place and the fingerprint of the issue about it
are the same under all orders exactly when no two cells of a module end a deepest path. -/
theorem deep_path_stable_iff (netlist : Dict) : DeepPathStable netlist ↔
    ∀ entry ∈ netlistModules netlist, ∀ a b, EndsDeepest entry.2 a → EndsDeepest entry.2 b → a = b := by
  constructor
  · intro hstable entry hentry a b ha hb
    obtain ⟨order, rfl⟩ := exists_order_endpoint ha
    obtain ⟨order', rfl⟩ := exists_order_endpoint hb
    have hfields := (hstable (fun _ => order) fun _ => order').1 entry hentry "deepest_endpoint"
      List.mem_cons_self
    exact Json.str.inj (Option.some.inj hfields)
  · intro hunique orders orders'
    have hsummary : ∀ entry ∈ netlistModules netlist, ∀ moduleName,
        moduleGraphSummary entry.2 (orders entry.1) moduleName =
          moduleGraphSummary entry.2 (orders' entry.1) moduleName := fun entry hentry moduleName =>
      moduleGraphSummary_congr (last_eq (hunique entry hentry) _ _) moduleName
    have hsummaries : summaries orders netlist = summaries orders' netlist :=
      List.map_congr_left fun entry hentry => hsummary entry hentry _
    refine ⟨fun entry hentry field _ => by rw [hsummary entry hentry], fun env workspace stat => ?_⟩
    have hmetrics : structuralMetricsFromNetlist orders netlist =
        structuralMetricsFromNetlist orders' netlist := by
      unfold structuralMetricsFromNetlist collected deepCombPaths combCycleModules
      rw [hsummaries]
    rw [reportedDeepPath, reportedDeepPath, hmetrics]

/-- The other way round. -/
def reversedOrder : Kahn.Order String where
  nodes := List.reverse
  next _ := List.reverse
  perm_nodes _ := List.reverse_perm _
  perm_next _ _ := List.reverse_perm _

/-- An inverter at a place in the source. -/
def placedInverter (src : String) (input output : Int) : Json :=
  .obj [("type", .str "$not"), ("attributes", .obj [("src", .str src)]),
    ("connections", .obj [("A", .arr [.int input]), ("Y", .arr [.int output])])]

/-- Fifteen inverters in a row, the last of which feeds two more. -/
def forkedModule : Dict :=
  [("cells", .obj ((["c1", "c2", "c3", "c4", "c5", "c6", "c7", "c8", "c9", "c10", "c11", "c12", "c13",
      "c14", "c15"].zipIdx.map fun entry => (entry.1, inverterCell entry.2 (entry.2 + 1))) ++
    [("left", placedInverter "cpu.sv:10.3" 15 16), ("right", placedInverter "cpu.sv:20.3" 15 17)]))]

def forkedNetlist : Dict := [("modules", .obj [("top", .obj forkedModule)])]

theorem forked_deep_path_moves : ¬DeepPathStable forkedNetlist ∧
    (reportedDeepPath (fun _ => asWritten) [] forkedNetlist).bind (Dict.get · "line") = some (.int 20) ∧
    (reportedDeepPath (fun _ => reversedOrder) [] forkedNetlist).bind (Dict.get · "line") =
      some (.int 10) := by
  refine ⟨fun hstable => ?_, by decide +kernel, by decide +kernel⟩
  have hfields := (hstable (fun _ => asWritten) fun _ => reversedOrder).1 ("top", forkedModule)
    List.mem_cons_self "deepest_line" (by decide)
  have hmoves : (moduleGraphSummary forkedModule asWritten "top").get "deepest_line" ≠
      (moduleGraphSummary forkedModule reversedOrder "top").get "deepest_line" := by decide +kernel
  exact hmoves hfields

end EccFe.Tools.Review
