/-
EccFe.Tools.Review.ModuleGraph — what the Yosys precheck reads off a netlist, from
`fecompiler/tools/review/structural_probe.py`.

The combinational cells of a module and who feeds whom are a graph (`combGraph`), and the graph is
sorted by counting (`Search.Kahn`). The cells and the successors of a cell are sets of the source,
so the order in which they come up is a parameter, `Kahn.Order`.
-/
import EccFe.Search.Kahn
import EccFe.Tools.InputDigest
import EccFe.Tools.Review.Precheck

namespace EccFe.Tools.Review

open Python Engine RtlInputs RtlOwnership ToolLog Search

/-! ## 1. Cells -/

/-- `_connection_bits(value)`: the integers of a list, `True` and `False` among them. -/
def connectionBits (value : Json) : List Int :=
  value.items.filterMap fun
    | .int n => some n
    | .bool true => some 1
    | .bool false => some 0
    | _ => none

def isSequentialCell (cellType : String) : Bool :=
  mentions ["$dff", "$adff", "$sdff", "$dlatch", "$mem", "dff", "latch"] (lowerText cellType.toList)

/-- The letters of `name.upper()`. No other character has one of `C`, `O`, `Q`, `T`, `U` and `Y` as
its upper case. -/
def upperChar (c : Char) : Char := if 'a' ≤ c && c ≤ 'z' then Char.ofNat (c.toNat - 32) else c

/-- `name.lstrip("\\")`. -/
def stripBackslashes (name : List Char) : String := String.ofList (lstripBy (· == '\\') name)

def inferPortDirection (cellType port : String) : String :=
  let name := stripBackslashes (port.toList.map upperChar)
  if isSequentialCell (lower cellType) then if name = "Q" then "output" else "input"
  else if name ∈ ["Y", "Q", "O", "OUT", "C"] then "output"
  else "input"

/-- The pattern of a place in the attribute `src`. -/
def attributeRegex : Regex :=
  Regex.cat [.group "source" (Regex.cat [.star false Regex.any, .text ".",
      Regex.oneOf [.text "sv", .text "svh", .text "v", .text "vh"]]),
    .text ":", .group "line" (.plus unicodeDigit),
    Regex.maybe (Regex.cat [.text ".", .group "column" (.plus unicodeDigit)])]

def sourceLocationFromAttrs (attrs : Json) : Dict :=
  let raw := stripBy isSpace (attrs.asDict.textAt "src").toList
  match attributeRegex.find (raw.takeWhile (· ≠ '|')) with
  | some m =>
      [("source", .str (String.ofList ((m.group "source").getD []))),
        ("line", .int (numberOrZero m "line")),
        ("column", .int (if numberOrZero m "column" = 0 then 1 else numberOrZero m "column"))]
  | none => []

/-- `location.get("source")`, as a condition. -/
def hasSource (location : Dict) : Bool := (location.getD "source" .null).truthy

/-- What a cell connects a port of its own to. -/
structure Connection where
  port : String
  direction : String
  bits : List Int

def Connection.reads (c : Connection) : Bool := c.direction == "input" || c.direction == "inout"

def Connection.drives (c : Connection) : Bool := c.direction == "output" || c.direction == "inout"

/-- The connections of a cell; a port without a direction gets one by its name. -/
def connectionsOf (cellType : String) (cell : Dict) : List Connection :=
  let directions := cell.dictAt "port_directions"
  (cell.dictAt "connections").map fun entry =>
    let direction := lower (directions.textAt entry.1)
    { port := entry.1
      direction := if direction = "" then inferPortDirection cellType entry.1 else direction
      bits := connectionBits entry.2 }

structure Cell where
  name : String
  type : String
  location : Dict
  connections : List Connection

def Cell.inputs (c : Cell) : List Int := (c.connections.filter Connection.reads).flatMap (·.bits)

def Cell.outputs (c : Cell) : List Int := (c.connections.filter Connection.drives).flatMap (·.bits)

def Cell.isSequential (c : Cell) : Bool := isSequentialCell c.type

/-- The dicts of a dict, under their names. -/
def namedDicts (d : Dict) : List (String × Dict) :=
  d.filterMap fun
    | (name, .obj fields) => some (name, fields)
    | _ => none

/-- The cells of a module in their order. -/
def moduleCells (module : Dict) : List Cell :=
  (namedDicts (module.dictAt "cells")).map fun entry =>
    { name := stripBackslashes entry.1.toList
      type := entry.2.textAt "type"
      location := sourceLocationFromAttrs (entry.2.getD "attributes" .null)
      connections := connectionsOf (entry.2.textAt "type") entry.2 }

/-! ## 2. Nets -/

section

variable (module : Dict)

/-- The bits of the ports of one direction, with the names that stand for the ports. -/
def portBits (direction : String) : List (Int × String) :=
  ((namedDicts (module.dictAt "ports")).filter fun entry =>
      entry.2.textAt "direction" == direction).flatMap fun entry =>
    (connectionBits (entry.2.getD "bits" .null)).map fun bit => (bit, "port:" ++ entry.1)

/-- The entries of `drivers` in the order they are made. -/
def driverEntries : List (Int × String) :=
  portBits module "input" ++
    (moduleCells module).flatMap fun c => c.outputs.map fun bit => (bit, c.name)

/-- The entries of `consumers` in the order they are made, without the ports of the cells. -/
def consumerEntries : List (Int × String) :=
  portBits module "output" ++
    (moduleCells module).flatMap fun c => c.inputs.map fun bit => (bit, c.name)

/-- `drivers.get(bit, [])`. -/
def driversOf (bit : Int) : List String :=
  ((driverEntries module).filter fun entry => entry.1 = bit).map (·.2)

/-- `consumers.get(bit, [])`, without the ports of the cells. -/
def consumersOf (bit : Int) : List String :=
  ((consumerEntries module).filter fun entry => entry.1 = bit).map (·.2)

/-- `bit_locations.get(bit)`: the first net with a place that has the bit. -/
def bitLocation (bit : Int) : Dict :=
  let located := (namedDicts (module.dictAt "netnames")).filterMap fun entry =>
    let location := sourceLocationFromAttrs (entry.2.getD "attributes" .null)
    if hasSource location ∧ bit ∈ connectionBits (entry.2.getD "bits" .null) then some location
    else none
  located.head?.getD []

/-- `cell_locations.get(name, {})`: the place of the last cell of the name that has one. -/
def cellLocation (name : String) : Dict :=
  let located := (moduleCells module).filter fun c => c.name = name ∧ hasSource c.location
  (located.getLast?.map (·.location)).getD []

def isPort (name : String) : Bool := startsWith name.toList "port:"

def firstCellLocation (names : List String) : Dict :=
  ((names.filter fun name => !isPort name).findSome? fun name =>
    if cellLocation module name = [] then none else some (cellLocation module name)).getD []

def bitName (bit : Int) : String :=
  match (namedDicts (module.dictAt "netnames")).find? fun entry =>
    bit ∈ connectionBits (entry.2.getD "bits" .null) with
  | some entry => stripBackslashes entry.1.toList
  | none => "bit[" ++ String.ofList (intText bit) ++ "]"

def highFanoutThreshold : Nat := 64

def highFaninThreshold : Nat := 32

/-- The consumers of a bit but for the ports of the module. -/
def fanout (bit : Int) : Nat := (consumersOf module bit).countP fun sink => !isPort sink

/-- The keys of `consumers`. -/
def consumedBits : List Int := firstSeen id ((consumerEntries module).map (·.1))

/-- `a or b` for places. -/
def orLocation (a b : Dict) : Dict := if a = [] then b else a

def highFanout (moduleName : String) : List Dict :=
  ((consumedBits module).filter fun bit => highFanoutThreshold ≤ fanout module bit).map fun bit =>
    [("module", .str moduleName), ("net", .str (bitName module bit)), ("bit", .int bit),
      ("fanout", .int (fanout module bit)),
      ("drivers", .arr (((driversOf module bit).take 6).map .str))] ++
    orLocation (bitLocation module bit) (orLocation (firstCellLocation module (driversOf module bit))
      (firstCellLocation module (consumersOf module bit)))

/-- The last cell of a name. -/
def lastCell (name : String) : Option Cell :=
  ((moduleCells module).filter fun c => c.name = name).getLast?

/-- `cell_outputs.get(name, set())`. -/
def outputsOf (name : String) : List Int := ((lastCell module name).map Cell.outputs).getD []

/-- `len(cell_inputs[name])`. -/
def fanin (name : String) : Nat :=
  (((lastCell module name).map Cell.inputs).getD []).dedup.length

/-- The keys of `cell_inputs`. -/
def cellNames : List String := distinctTexts ((moduleCells module).map (·.name))

def highFanin (moduleName : String) : List Dict :=
  ((cellNames module).filter fun name => highFaninThreshold ≤ fanin module name).map fun name =>
    [("module", .str moduleName), ("cell", .str name), ("fanin", .int (fanin module name))] ++
      cellLocation module name

/-! ## 3. The graph of the combinational cells -/

def combCells : List String :=
  distinctTexts (((moduleCells module).filter fun c => !c.isSequential).map (·.name))

def seqCells : List String := distinctTexts (((moduleCells module).filter Cell.isSequential).map (·.name))

/-- `graph[source]`: a cell is no successor of itself. -/
def sinksOf (source : String) : List String :=
  distinctTexts ((outputsOf module source).flatMap fun bit =>
    (consumersOf module bit).filter fun sink => !(sink == source) && sink ∈ combCells module)

/-- The sinks of a cell are the other cells that consume what it drives. -/
theorem mem_sinksOf {source sink : String} : sink ∈ sinksOf module source ↔
    sink ≠ source ∧ sink ∈ combCells module ∧
      ∃ bit ∈ outputsOf module source, sink ∈ consumersOf module bit := by
  simp only [sinksOf, mem_distinctTexts, List.mem_flatMap, List.mem_filter, Bool.and_eq_true,
    Bool.not_eq_true', beq_eq_false_iff_ne, decide_eq_true_eq]
  constructor
  · rintro ⟨bit, hbit, hsink, hne, hcomb⟩
    exact ⟨hne, hcomb, bit, hbit, hsink⟩
  · rintro ⟨hne, hcomb, bit, hbit, hsink⟩
    exact ⟨bit, hbit, hsink, hne, hcomb⟩

def combGraph : Kahn.Graph String where
  nodes := combCells module
  next := sinksOf module
  nodup_nodes := nodup_distinctTexts _
  nodup_next _ := nodup_distinctTexts _
  next_subset _ _ _ hb := ((mem_sinksOf module).mp hb).2.1

/-! ## 4. The summary of a module -/

/-- What the loop over the queue leaves; no endpoint has been seen before it. -/
def sorted (order : Kahn.Order String) : Kahn.State String := Kahn.run ((combGraph module).reorder order) ""

/-- `max(depth.values()) if depth else 0`. -/
def maxCombDepth (order : Kahn.Order String) : Nat :=
  ((combCells module).map (sorted module order).depth).max?.getD 0

/-- `has_cycle`. -/
def combCycle (order : Kahn.Order String) : Bool :=
  !(combCells module).isEmpty && decide ((sorted module order).taken < (combCells module).length)

/-- `sorted(items, key=lambda item: _int_or_zero(item.get(key)), reverse=True)`, for integers. -/
def sortDescending (key : String) (items : List Dict) : List Dict :=
  items.mergeSort fun a b => decide (((intAt b key).getD 0) ≤ ((intAt a key).getD 0))

def moduleGraphSummary (order : Kahn.Order String) (moduleName : String) : Dict :=
  let endpoint := (sorted module order).last
  let location := cellLocation module endpoint
  [("module", .str moduleName), ("cell_count", .int (module.dictAt "cells").length),
    ("comb_cells", .int (combCells module).length),
    ("sequential_cells", .int (seqCells module).length),
    ("max_fanout", .int (((consumedBits module).map (fanout module)).max?.getD 0)),
    ("max_fanin", .int (((cellNames module).map (fanin module)).max?.getD 0)),
    ("max_comb_depth", .int (maxCombDepth module order)), ("deepest_endpoint", .str endpoint),
    ("deepest_source", location.getD "source" (.str "")),
    ("deepest_line", location.getD "line" (.int 0)),
    ("deepest_column", location.getD "column" (.int 0)),
    ("comb_cycle", .bool (combCycle module order)),
    ("high_fanout_nets", .arr (((sortDescending "fanout" (highFanout module moduleName)).take 8).map .obj)),
    ("high_fanin_cells", .arr (((sortDescending "fanin" (highFanin module moduleName)).take 8).map .obj))]

end

/-! ## 5. Who feeds whom -/

section

variable (module : Dict)

/-- Cells as they stand in the file: one drives a bit that the other consumes. -/
def CellFeeds (a b : Cell) : Prop :=
  (a ∈ moduleCells module ∧ a.isSequential = false) ∧ (b ∈ moduleCells module ∧ b.isSequential = false) ∧
    ∃ bit, bit ∈ a.outputs ∧ bit ∈ b.inputs

/-- Some combinational cell has the name. -/
def Combinational (name : String) : Prop :=
  ∃ c ∈ moduleCells module, c.name = name ∧ c.isSequential = false

/-- The last cell of the name drives the bit. -/
def Drives (name : String) (bit : Int) : Prop := ∃ c, lastCell module name = some c ∧ bit ∈ c.outputs

/-- The name stands for an output port. -/
def IsOutputPort (name : String) (bit : Int) : Prop :=
  ∃ entry ∈ namedDicts (module.dictAt "ports"), entry.2.textAt "direction" = "output" ∧
    bit ∈ connectionBits (entry.2.getD "bits" .null) ∧ name = "port:" ++ entry.1

/-- A cell of the name, or an output port the name stands for, consumes the bit. -/
def Consumes (name : String) (bit : Int) : Prop :=
  IsOutputPort module name bit ∨ ∃ c ∈ moduleCells module, c.name = name ∧ bit ∈ c.inputs

/-- Of two combinational cells, known by their names, one drives a bit that the other consumes. -/
def Feeds (a b : String) : Prop :=
  a ≠ b ∧ Combinational module a ∧ Combinational module b ∧ ∃ bit, Drives module a bit ∧ Consumes module b bit

/-- A combinational path. -/
def IsPath (path : List String) : Prop :=
  path.IsChain (Feeds module) ∧ ∀ name ∈ path, Combinational module name

/-- A longest combinational path has `n` cells, and the last of one is `name`. -/
def LongestPath (n : Nat) (name : String) : Prop :=
  (∃ path, IsPath module path ∧ path.length = n ∧ path.getLast? = some name) ∧
    ∀ path, IsPath module path → path.length ≤ n

/-- The names tell the cells apart and stand for no output port. -/
def WellNamed : Prop :=
  ((moduleCells module).map (·.name)).Nodup ∧
    ∀ c ∈ moduleCells module, ∀ bit, ¬IsOutputPort module c.name bit

variable {module}

theorem mem_combCells {name : String} : name ∈ combCells module ↔ Combinational module name := by
  simp only [combCells, mem_distinctTexts, List.mem_map, List.mem_filter, Bool.not_eq_true']
  constructor
  · rintro ⟨c, ⟨hc, hcomb⟩, hname⟩
    exact ⟨c, hc, hname, hcomb⟩
  · rintro ⟨c, hc, hname, hcomb⟩
    exact ⟨c, ⟨hc, hcomb⟩, hname⟩

theorem mem_outputsOf {name : String} {bit : Int} : bit ∈ outputsOf module name ↔ Drives module name bit := by
  unfold outputsOf Drives
  cases lastCell module name with
  | none => simp
  | some c => simp

theorem mem_consumersOf {name : String} {bit : Int} :
    name ∈ consumersOf module bit ↔ Consumes module name bit := by
  simp only [consumersOf, consumerEntries, portBits, List.mem_map, List.mem_filter, List.mem_append,
    List.mem_flatMap, decide_eq_true_eq, beq_iff_eq, Prod.exists, Consumes, IsOutputPort]
  constructor
  · rintro ⟨b, sink, ⟨⟨port, fields, ⟨hport, hdirection⟩, bit', hbit, heq⟩ | ⟨c, hc, bit', hbit, heq⟩, rfl⟩, rfl⟩
    · obtain ⟨rfl, rfl⟩ := Prod.mk.inj heq
      exact .inl ⟨port, fields, hport, hdirection, hbit, rfl⟩
    · obtain ⟨rfl, rfl⟩ := Prod.mk.inj heq
      exact .inr ⟨c, hc, rfl, hbit⟩
  · rintro (⟨port, fields, hport, hdirection, hbit, rfl⟩ | ⟨c, hc, rfl, hbit⟩)
    · exact ⟨bit, _, ⟨.inl ⟨port, fields, ⟨hport, hdirection⟩, bit, hbit, rfl⟩, rfl⟩, rfl⟩
    · exact ⟨bit, _, ⟨.inr ⟨c, hc, bit, hbit, rfl⟩, rfl⟩, rfl⟩

/-- The edges of the graph are who feeds whom. -/
theorem edge_combGraph : Kahn.Edge (combGraph module) = Feeds module := by
  funext a b
  refine propext ?_
  show a ∈ combCells module ∧ b ∈ sinksOf module a ↔ _
  simp only [mem_sinksOf, mem_combCells, mem_outputsOf, mem_consumersOf, Feeds]
  constructor
  · rintro ⟨ha, hne, hb, bit, hboth⟩
    exact ⟨hne.symm, ha, hb, bit, hboth⟩
  · rintro ⟨hne, ha, hb, bit, hboth⟩
    exact ⟨ha, hne.symm, hb, bit, hboth⟩

/-- In a module whose names tell the cells apart, names feed each other as the cells do. -/
theorem feeds_iff_cellFeeds (h : WellNamed module) {a b : Cell} (ha : a ∈ moduleCells module)
    (hb : b ∈ moduleCells module) : Feeds module a.name b.name ↔ a ≠ b ∧ CellFeeds module a b := by
  have hsame : ∀ {c d : Cell}, c ∈ moduleCells module → d ∈ moduleCells module → c.name = d.name → c = d :=
    fun hc hd hname => List.inj_on_of_nodup_map h.1 hc hd hname
  have hcomb : ∀ {c : Cell}, c ∈ moduleCells module →
      (Combinational module c.name ↔ c.isSequential = false) := by
    intro c hc
    constructor
    · rintro ⟨d, hd, hname, hcombD⟩
      rwa [← hsame hd hc hname]
    · exact fun hcombC => ⟨c, hc, rfl, hcombC⟩
  have hlast : lastCell module a.name = some a := by
    have hne : lastCell module a.name ≠ none := by
      rw [lastCell, ne_eq, List.getLast?_eq_none_iff, List.filter_eq_nil_iff]
      exact fun hall => hall a ha (by simp)
    obtain ⟨c, hc⟩ := Option.ne_none_iff_exists'.mp hne
    have hmem := List.mem_filter.mp (List.mem_of_getLast? hc)
    rw [hc, hsame hmem.1 ha (by simpa using hmem.2)]
  have hconsumes : ∀ bit, Consumes module b.name bit ↔ bit ∈ b.inputs := by
    intro bit
    constructor
    · rintro (hport | ⟨c, hc, hname, hbit⟩)
      · exact absurd hport (h.2 b hb bit)
      · rwa [← hsame hc hb hname]
    · exact fun hbit => .inr ⟨b, hb, rfl, hbit⟩
  have hdrives : ∀ bit, Drives module a.name bit ↔ bit ∈ a.outputs := by
    intro bit
    rw [Drives, hlast]
    simp
  have hne : a.name ≠ b.name ↔ a ≠ b := not_congr ⟨hsame ha hb, congrArg _⟩
  simp only [Feeds, CellFeeds, hne, hcomb ha, hcomb hb, hdrives, hconsumes]
  tauto

/-- The paths of the sort are the combinational paths. -/
theorem endsAt_combGraph {n : Nat} {name : String} : Kahn.EndsAt (combGraph module) n name ↔
    ∃ path, IsPath module path ∧ path.length = n ∧ path.getLast? = some name := by
  rw [Kahn.endsAt_iff_chain, edge_combGraph]
  have hnodes : ∀ b, b ∈ (combGraph module).nodes ↔ Combinational module b := fun b => mem_combCells
  simp only [hnodes, IsPath, and_assoc]

end

/-! ## 6. Cycles and depths -/

section

variable {module : Dict} (order : Kahn.Order String)

theorem alike_combGraph : Kahn.Alike ((combGraph module).reorder order) (combGraph module) :=
  Kahn.alike_reorder _ order

/-- A cycle is reported exactly when some cell feeds itself through others. -/
theorem combCycle_iff : combCycle module order = true ↔ ∃ c, Relation.TransGen (Feeds module) c c := by
  have hedge : Kahn.Edge ((combGraph module).reorder order) = Feeds module :=
    (alike_combGraph order).edge.trans edge_combGraph
  have hlength : ((combGraph module).reorder order).nodes.length = (combCells module).length :=
    (order.perm_nodes _).length_eq
  have htaken := Kahn.taken_lt_iff ((combGraph module).reorder order) ""
  rw [hlength, hedge] at htaken
  rw [← htaken, combCycle, Bool.and_eq_true, decide_eq_true_eq]
  refine and_iff_right_of_imp fun hlt => ?_
  cases hcells : combCells module with
  | nil =>
    rw [hcells] at hlt
    exact absurd hlt (Nat.not_lt_zero _)
  | cons name rest => rfl

/-- Without a cycle every depth is the length of a longest path to the cell. -/
theorem level_sorted (hacyclic : ¬∃ c, Relation.TransGen (Feeds module) c c) {name : String}
    (hname : name ∈ combCells module) : Kahn.Level (combGraph module) ((sorted module order).depth name) name := by
  rw [← (alike_combGraph order).level]
  refine Kahn.depth_level (fun c hcycle => hacyclic ⟨c, ?_⟩) ((order.perm_nodes _).mem_iff.mpr hname)
  rwa [(alike_combGraph order).edge, edge_combGraph] at hcycle

/-- Without a cycle the sort finds a longest path. -/
theorem longestPath_sorted (hacyclic : ¬∃ c, Relation.TransGen (Feeds module) c c)
    (hcells : combCells module ≠ []) :
    LongestPath module (maxCombDepth module order) (sorted module order).last := by
  have hclear : ∀ name ∈ combCells module, Kahn.Clear (combGraph module) name := by
    refine fun name hname => ⟨hname, fun c hcycle => ?_⟩
    rw [edge_combGraph] at hcycle
    exact absurd ⟨c, hcycle⟩ hacyclic
  obtain ⟨name, hname⟩ := List.exists_mem_of_ne_nil _ hcells
  have hdeepest : Kahn.Deepest (combGraph module) (sorted module order).last := by
    rw [← (alike_combGraph order).deepest]
    refine (Kahn.last_deepest _ "").resolve_right ?_
    rintro ⟨-, hnone⟩
    exact hnone name ((alike_combGraph order).clear.mpr (hclear name hname))
  obtain ⟨⟨hlast, -⟩, n, hn, hmax⟩ := hdeepest
  have hlevel := level_sorted order hacyclic hlast
  -- The depth of the last node is the largest depth.
  have hdepth : maxCombDepth module order = (sorted module order).depth (sorted module order).last := by
    have hmaximum : ((combCells module).map (sorted module order).depth).max? =
        some ((sorted module order).depth (sorted module order).last) := by
      rw [List.max?_eq_some_iff]
      refine ⟨List.mem_map_of_mem hlast, fun d hd => ?_⟩
      obtain ⟨name, hname, rfl⟩ := List.mem_map.mp hd
      have hpath := (level_sorted order hacyclic hname).1
      exact Nat.le_trans (hmax name _ (hclear name hname) hpath) (hlevel.2 n hn)
    rw [maxCombDepth, hmaximum, Option.getD_some]
  rw [hdepth]
  refine ⟨endsAt_combGraph.mp hlevel.1, fun path hpath => ?_⟩
  cases hend : path.getLast? with
  | none =>
    rw [List.getLast?_eq_none_iff.mp hend]
    exact Nat.zero_le _
  | some name =>
    have hname := mem_combCells.mpr (hpath.2 name (List.mem_of_getLast? hend))
    have hends : Kahn.EndsAt (combGraph module) path.length name :=
      endsAt_combGraph.mpr ⟨path, hpath, rfl, hend⟩
    exact Nat.le_trans (hmax name _ (hclear name hname) hends) (hlevel.2 n hn)

/-- Without a combinational cell the depth is zero and no endpoint is named. -/
theorem summary_of_no_cells {module : Dict} (order : Kahn.Order String)
    (hcells : ¬∃ name, Combinational module name) :
    maxCombDepth module order = 0 ∧ (sorted module order).last = "" := by
  have hempty : combCells module = [] :=
    List.eq_nil_iff_forall_not_mem.mpr fun name hname => hcells ⟨name, mem_combCells.mp hname⟩
  refine ⟨by rw [maxCombDepth, hempty]; rfl, ?_⟩
  rcases Kahn.last_deepest ((combGraph module).reorder order) "" with hdeepest | ⟨hlast, -⟩
  · have hmem : (sorted module order).last ∈ combCells module :=
      ((alike_combGraph order).clear.mp hdeepest.1).1
    rw [hempty] at hmem
    cases hmem
  · exact hlast

/-- The summary of a module reports the cycles through different cells, and without one the longest
path; without combinational cells the depth is zero and the endpoint empty. Names that tell the cells apart feed each other as the cells do. -/
theorem module_cycle_and_depth (module : Dict) (order : Kahn.Order String) (moduleName : String) :
    ((moduleGraphSummary module order moduleName).get "comb_cycle" = some (.bool true) ↔
      ∃ name, Relation.TransGen (Feeds module) name name) ∧
    ((¬∃ name, Relation.TransGen (Feeds module) name name) → (∃ name, Combinational module name) →
      ∃ (depth : Nat) (endpoint : String),
        (moduleGraphSummary module order moduleName).get "max_comb_depth" = some (.int depth) ∧
        (moduleGraphSummary module order moduleName).get "deepest_endpoint" = some (.str endpoint) ∧
        LongestPath module depth endpoint) ∧
    ((¬∃ name, Combinational module name) →
      (moduleGraphSummary module order moduleName).get "max_comb_depth" = some (.int 0) ∧
      (moduleGraphSummary module order moduleName).get "deepest_endpoint" = some (.str "")) ∧
    (WellNamed module → ∀ a ∈ moduleCells module, ∀ b ∈ moduleCells module,
      (Feeds module a.name b.name ↔ a ≠ b ∧ CellFeeds module a b)) := by
  refine ⟨?_, fun hacyclic hcells => ?_, fun hcells => ?_,
    fun hnamed a ha b hb => feeds_iff_cellFeeds hnamed ha hb⟩
  · have hfield : (moduleGraphSummary module order moduleName).get "comb_cycle" =
        some (.bool (combCycle module order)) := rfl
    rw [hfield, Option.some.injEq, Json.bool.injEq]
    exact combCycle_iff order
  · obtain ⟨name, hname⟩ := hcells
    have hne : combCells module ≠ [] := List.ne_nil_of_mem (mem_combCells.mpr hname)
    exact ⟨_, _, rfl, rfl, longestPath_sorted order hacyclic hne⟩
  · obtain ⟨hdepth, hlast⟩ := summary_of_no_cells order hcells
    have hdepthField : (moduleGraphSummary module order moduleName).get "max_comb_depth" =
        some (.int (maxCombDepth module order)) := rfl
    have hlastField : (moduleGraphSummary module order moduleName).get "deepest_endpoint" =
        some (.str (sorted module order).last) := rfl
    rw [hdepthField, hlastField, hdepth, hlast]
    exact ⟨rfl, rfl⟩

/-- The order in which the lists of the model are written. -/
def asWritten : Kahn.Order String where
  nodes := id
  next _ := id
  perm_nodes _ := .rfl
  perm_next _ _ := .rfl

def inverterCell (input output : Int) : Json :=
  .obj [("type", .str "$not"),
    ("connections", .obj [("A", .arr [.int input]), ("Y", .arr [.int output])])]

/-- An inverter whose output is its input. -/
def selfFeeding : Dict := [("cells", .obj [("inverter", inverterCell 2 2)])]

theorem self_feeding_unreported :
    (moduleGraphSummary selfFeeding asWritten "top").get "comb_cycle" = some (.bool false) ∧
      ∃ c, Relation.TransGen (CellFeeds selfFeeding) c c := by
  have hloops : ∀ c ∈ moduleCells selfFeeding,
      c.isSequential = false ∧ 2 ∈ c.outputs ∧ 2 ∈ c.inputs := by decide +kernel
  have hmem := List.head_mem (l := moduleCells selfFeeding) (List.cons_ne_nil _ _)
  obtain ⟨hcomb, hdrives, hconsumes⟩ := hloops _ hmem
  exact ⟨by decide +kernel, _, .single ⟨⟨hmem, hcomb⟩, ⟨hmem, hcomb⟩, 2, hdrives, hconsumes⟩⟩

/-- Two inverters in a row. -/
def inverterPair : Dict := [("cells", .obj [("first", inverterCell 2 3), ("second", inverterCell 3 4)])]

theorem module_cycle_and_depth_pair : LongestPath inverterPair 2 "second" := by
  obtain ⟨hcycle, hdepth, -⟩ := module_cycle_and_depth inverterPair asWritten "top"
  have hacyclic : ¬∃ name, Relation.TransGen (Feeds inverterPair) name name := by
    rw [← hcycle]
    decide +kernel
  obtain ⟨depth, endpoint, hget, hlast, hpath⟩ := hdepth hacyclic
    ⟨"first", mem_combCells.mp (by decide +kernel)⟩
  have htwo : (moduleGraphSummary inverterPair asWritten "top").get "max_comb_depth" =
      some (.int 2) := by decide +kernel
  have hsecond : (moduleGraphSummary inverterPair asWritten "top").get "deepest_endpoint" =
      some (.str "second") := by decide +kernel
  rw [htwo] at hget
  rw [hsecond] at hlast
  obtain rfl : "second" = endpoint := Json.str.inj (Option.some.inj hlast)
  obtain rfl : 2 = depth := Int.ofNat.inj (Json.int.inj (Option.some.inj hget))
  exact hpath

end

end EccFe.Tools.Review
