/-
EccFe.Tools.Slang.Structure — `scan_rtl_structure` of `fecompiler/tools/slang/runner.py`:
the modules of the sources and what they instantiate, found by patterns.

The inventory is informational. A module defined twice keeps the place, ports and
parameters of its first definition and the instances of its last one.
-/
import EccFe.Tools.SvModule

namespace EccFe.Tools.Slang

open Python SvModule

/-! ## 1. Patterns -/

section

variable (env : Env)

/-- `[\w$]`. -/
def isNameChar (c : Char) : Bool := env.isWord c || c == '$'

end

section

variable (env : Env)

structure ModuleRecord where
  module : String
  path : String
  line : Nat
  ports : Nat
  parameters : Nat
  instances : Nat
  instantiates : List String

/-- `sorted(set(texts))`. -/
def sortedTexts (texts : List String) : List String :=
  texts.dedup.mergeSort fun a b => decide (a ≤ b)

/-- What the scan has seen so far, modules in the order of their first definition. -/
structure ScanState where
  modules : List ModuleRecord
  referenced : List String

/-- `module_by_name.setdefault(name, ...)` and the two assignments after it. -/
def ScanState.define (st : ScanState) (first : ModuleRecord) : ScanState :=
  let update (m : ModuleRecord) : ModuleRecord :=
    { m with instances := first.instances, instantiates := sortedTexts first.instantiates }
  { modules :=
      if st.modules.any fun m => m.module == first.module then
        st.modules.map fun m => if m.module = first.module then update m else m
      else st.modules ++ [update first]
    referenced := st.referenced ++ first.instantiates }

end

end EccFe.Tools.Slang
