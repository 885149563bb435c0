/-
EccFe.Tools.Prepare.Generated — `write_generated_rtl_filelist` of
`fecompiler/tools/common/rtl_inputs.py`, and what the prepare step reads of its file.

The writer quotes every path for a shell. The reader splits a source line as a shell
does, but cuts an include-directory line at `+` and strips quotes from the pieces.
-/
import Mathlib.Data.List.Perm.Subperm
import Mathlib.Data.List.Nodup
import EccFe.Python.TextFile
import EccFe.Tools.SvModule
import EccFe.Tools.Prepare.Filelist

namespace EccFe

/-- The machine after a file was written, with the directories above it. -/
def Env.create (env : Env) (p : Python.AbsPath) (content : List UInt8) : Env :=
  { env with host := { env.host with fs := env.host.fs.create p content } }

end EccFe

namespace EccFe.Tools.RtlInputs

open Python

/-! ## 1. The writer -/

/-- `import\s+"DPI-C"\s+function\s+int\s+difftest_step\b` -/
def difftestImport (env : Env) : Regex :=
  .cat [.text "import", .plus .space, .text "\"DPI-C\"", .plus .space, .text "function",
    .plus .space, .text "int", .plus .space, .text "difftest_step", .wordBoundary env.isWord]

/-- `/\*.*?\*/` with `re.DOTALL`. -/
def blockComment : Regex := .cat [.text "/*", .star false (.char fun _ => true), .text "*/"]

/-- `//[^\r\n]*` -/
def lineComment : Regex := .cat [.text "//", .star true (.char fun c => c != '\r' && c != '\n')]

def isDifftestAdapter (env : Env) (path : AbsPath) : Bool :=
  if lower (PurePath.mk true path).suffix ∈ hashedSuffixes then
    match env.fs.readBytes path with
    | none => false
    | some bytes =>
        let text := Regex.sub blockComment [] (universalNewlines (decodeIgnore bytes))
        Regex.hits (difftestImport env) (Regex.sub lineComment [] text)
  else false

/-- `rtl_sources_provide_difftest_adapter(sources)`, for resolved sources. -/
def rtlSourcesProvideDifftestAdapter (env : Env) (sources : List AbsPath) : Bool :=
  sources.any (isDifftestAdapter env)

/-- `list(dict.fromkeys(items))`: each element once, where it occurs first. -/
def firstSeen {α : Type} [DecidableEq α] (items : List α) : List α :=
  items.foldl (fun seen item => if item ∈ seen then seen else seen ++ [item]) []

theorem mem_firstSeen {α : Type} [DecidableEq α] {x : α} {l : List α} :
    x ∈ firstSeen l ↔ x ∈ l := by
  have hfold : ∀ (l seen : List α),
      x ∈ l.foldl (fun seen y => if y ∈ seen then seen else seen ++ [y]) seen ↔
        x ∈ seen ∨ x ∈ l := by
    intro l
    induction l with
    | nil => simp
    | cons y l ih =>
      intro seen
      rw [List.foldl_cons, ih]
      split
      · rename_i hy
        have hx : x = y → x ∈ seen := fun heq => heq ▸ hy
        rw [List.mem_cons, ← or_assoc]
        exact or_congr_left (or_iff_left_of_imp hx).symm
      · simp [or_assoc]
  rw [firstSeen, hfold]
  simp

theorem firstSeen_concat {α : Type} [DecidableEq α] (l : List α) (x : α) :
    firstSeen (l ++ [x]) = if x ∈ firstSeen l then firstSeen l else firstSeen l ++ [x] := by
  rw [firstSeen, List.foldl_append]
  rfl

/-- `dict.fromkeys` keeps each item once. -/
theorem nodup_firstSeen {α : Type} [DecidableEq α] (l : List α) : (firstSeen l).Nodup := by
  induction l using List.reverseRecOn with
  | nil => exact List.nodup_nil
  | append_singleton l x ih =>
    rw [firstSeen_concat]
    split
    · exact ih
    · rename_i hx
      exact List.nodup_append'.mpr ⟨ih, List.nodup_singleton x, by simpa using hx⟩

theorem firstSeen_of_nodup {α : Type} [DecidableEq α] {l : List α} (h : l.Nodup) :
    firstSeen l = l := by
  induction l using List.reverseRecOn with
  | nil => rfl
  | append_singleton l x ih =>
    obtain ⟨hl, -, hdisjoint⟩ := List.nodup_append'.mp h
    have hx : x ∉ firstSeen l := fun hmem => by simpa using hdisjoint (mem_firstSeen.mp hmem)
    rw [firstSeen_concat, if_neg hx, ih hl]

/-- Only a list with no repetition keeps its length. -/
theorem firstSeen_eq_of_length {α : Type} [DecidableEq α] {l : List α}
    (h : l.length ≤ (firstSeen l).length) : firstSeen l = l := by
  have hperm : (firstSeen l).Subperm l :=
    (nodup_firstSeen l).subperm fun _ hx => mem_firstSeen.mp hx
  have hnodup : l.Nodup := (hperm.perm_of_length_le h).nodup_iff.mp (nodup_firstSeen l)
  exact firstSeen_of_nodup hnodup

/-- The resolved sources, each once, in order. -/
def resolvedSources (env : Env) (sources : List String) : List AbsPath :=
  firstSeen (sources.map env.host.resolveText)

/-- `list(dict.fromkeys(path.parent for path in resolved))`. -/
def includeDirs (resolved : List AbsPath) : List AbsPath :=
  firstSeen (resolved.map AbsPath.parent)

def headerLine (description : String) : List Char :=
  "# Generated by ecc-fe from ".toList ++ description.toList

def incdirLine (dir : AbsPath) : List Char :=
  "+incdir+".toList ++ shlexQuote (PurePath.absText dir).toList

def sourceLine (path : AbsPath) : List Char := shlexQuote (PurePath.absText path).toList

/-- The generator adds the difftest define. -/
def addsDifftest (env : Env) (resolved : List AbsPath) (enableDifftest : Bool) : Bool :=
  enableDifftest && rtlSourcesProvideDifftestAdapter env resolved

def generatedLines (resolved : List AbsPath) (difftest : Bool) (description : String) :
    List (List Char) :=
  headerLine description :: ((if difftest then ["+define+ECOS_DIFFTEST".toList] else []) ++
    (includeDirs resolved).map incdirLine ++ resolved.map sourceLine)

/-- `write_generated_rtl_filelist`, when the write succeeds: the machine afterwards and the
path of the list. -/
def writeGeneratedRtlFilelist (env : Env) (filelistPath : AbsPath) (sources : List String)
    (enableDifftest : Bool) (description : String) : Env × AbsPath :=
  let resolved := resolvedSources env sources
  let lines := generatedLines resolved (addsDifftest env resolved enableDifftest) description
  (env.create filelistPath (encode (joinLines lines)), env.fs.realpath filelistPath)

end EccFe.Tools.RtlInputs

namespace EccFe.Tools.Prepare

open Python Search Resources RtlInputs

/-! ## 2. What a generated line is read as -/

/-- `["incdirs"]` of the answer. -/
def incdirsOf (entries : List SvEntry) : List AbsPath :=
  entries.filterMap fun
    | .incdir path => some path
    | _ => none

/-- `["defines"]` of the answer. -/
def definesOf (entries : List SvEntry) : List String :=
  entries.filterMap fun
    | .define text => some text
    | _ => none

/-- The names the reader finds in the line of an include directory. -/
def incdirNames (dir : AbsPath) : List String :=
  ((plusPieces (shlexQuote (PurePath.absText dir).toList)).map stripQuotes).filter (· ≠ "")

/-- The word the reader finds in the line of a source. -/
def sourceName (path : AbsPath) : String := stripQuotes (PurePath.absText path)

theorem not_safe_of_break {c : Char} (hc : isLineBreak c = true) : isShellSafe c = false := by
  by_contra hsafe
  have hspace := (plain_of_isShellSafe (by simpa using hsafe)).1
  have hbreak : isLineBreak c = true → isSpace c = true := by
    simp [isLineBreak, isSpace]
    omega
  rw [hbreak hc] at hspace
  cases hspace

/-- Quoting adds no line break. -/
theorem oneLine_quoteBody {cs : List Char} (h : OneLine cs) : OneLine (quoteBody cs) := by
  intro c hc
  obtain ⟨d, hd, hmem⟩ := List.mem_flatMap.mp hc
  split at hmem
  · have hall : ∀ c ∈ "'\"'\"'".toList, isLineBreak c = false := by decide
    exact hall c hmem
  · rw [List.mem_singleton.mp hmem]
    exact h d hd

/-- Quoting adds no line break. -/
theorem oneLine_quote {cs : List Char} (h : OneLine cs) : OneLine (shlexQuote cs) := by
  unfold shlexQuote
  split
  · unfold OneLine
    decide
  split
  · exact h
  · intro c hc
    rw [List.mem_append, List.mem_cons, List.mem_singleton] at hc
    rcases hc with (rfl | hc) | rfl
    · rfl
    · exact oneLine_quoteBody h c hc
    · rfl

/-- A break leaves the quotation open. -/
theorem firstLine_quote {cs : List Char} (h : ¬OneLine cs) :
    ∃ c post, shlexQuote cs = ('\'' :: quoteBody (firstLine cs)) ++ c :: post ∧
      isLineBreak c = true := by
  obtain ⟨c, post, hcs, hc⟩ := exists_break h
  have hquote : c ≠ '\'' := by
    rintro rfl
    cases hc
  have hbody : quoteBody cs = quoteBody (firstLine cs) ++ c :: quoteBody post := by
    have hcopy := congrArg quoteBody hcs
    rw [hcopy]
    unfold quoteBody
    rw [List.flatMap_append, List.flatMap_cons, if_neg hquote]
    rfl
  have hnonempty : cs ≠ [] := by
    rintro rfl
    exact h (by simp [OneLine])
  have hunsafe : ¬cs.all isShellSafe = true := by
    intro hall
    rw [List.all_eq_true] at hall
    have hsafe := hall c (by rw [hcs]; simp)
    rw [not_safe_of_break hc] at hsafe
    cases hsafe
  refine ⟨c, quoteBody post ++ ['\''], ?_, hc⟩
  rw [shlexQuote, if_neg hnonempty, if_neg hunsafe, hbody]
  simp

section

variable {env : Env} {path : AbsPath}

/-- A comment line names nothing. -/
theorem svLine_header {description : String} :
    svLine env path (headerLine description) = [] := by
  have hignored : isIgnoredLine (stripBy isSpace (headerLine description)) = true := by
    have hhead : headerLine description = '#' :: (headerLine description).tail := rfl
    rw [hhead, stripBy_cons (by decide)]
    rfl
  simp only [svLine, hignored, if_true]

/-- The text of a path starts with one slash. -/
theorem absText_head {p : AbsPath} (hnames : ∀ part ∈ p, IsName part) :
    ∃ rest, (PurePath.absText p).toList = '/' :: rest ∧ rest.head? ≠ some '/' := by
  refine ⟨_, toList_absText p, ?_⟩
  cases p with
  | nil => simp
  | cons first rest =>
    have hfirst := hnames first List.mem_cons_self
    obtain ⟨c, cs, hcs⟩ : ∃ c cs, first.toList = c :: cs :=
      List.exists_cons_of_ne_nil fun hnil => hfirst.nonempty (String.toList_eq_nil_iff.mp hnil)
    have hhead : (['/'].intercalate ((first :: rest).map String.toList)).head? = some c := by
      rw [List.map_cons, hcs]
      cases rest with
      | nil => simp
      | cons next rest => simp [List.intercalate_cons_cons]
    rw [hhead]
    rintro heq
    cases heq
    exact hfirst.noSlash (by rw [hcs]; exact List.mem_cons_self)

/-- A quoted path starts with its slash or with a quote. -/
theorem sourceLine_head {p : AbsPath} (hnames : ∀ part ∈ p, IsName part) :
    ∃ c rest, sourceLine p = c :: rest ∧
      (c = '\'' ∨ c = '/' ∧ rest.head? ≠ some '/') := by
  obtain ⟨rest, htext, hhead⟩ := absText_head hnames
  unfold sourceLine shlexQuote
  rw [htext, if_neg (by simp)]
  split
  · exact ⟨'/', rest, rfl, .inr ⟨rfl, hhead⟩⟩
  · exact ⟨'\'', _, rfl, .inl rfl⟩

/-- The line of a source is read by its one word. -/
theorem svLine_source {p : AbsPath} (hnames : ∀ part ∈ p, IsName part) :
    svLine env path (sourceLine p) =
      sourceItems env path path.parent (sourceLine p) (PurePath.absText p).toList := by
  have hstrip : stripBy isSpace (sourceLine p) = sourceLine p := stripBy_quote _
  have hsplit : shlexSplit (sourceLine p) = some [(PurePath.absText p).toList] :=
    shlexSplit_quote _
  obtain ⟨c, rest, hline, hc⟩ := sourceLine_head hnames
  have hread : ReadAs (sourceLine p) [(PurePath.absText p).toList] := by
    refine ⟨?_, by rw [hstrip, hsplit]⟩
    rw [hstrip, hline]
    rcases hc with rfl | ⟨rfl, hslash⟩
    · rfl
    · cases rest with
      | nil => rfl
      | cons d rest =>
        have hd : d ≠ '/' := by simpa using hslash
        simp [isIgnoredLine, startsWith, List.isPrefixOf, hd.symm]
  have hnested : isNestedOption (PurePath.absText p).toList = false := by
    rw [toList_absText]
    rfl
  have hsign : startsWith (sourceLine p) "+" = false ∧ startsWith (sourceLine p) "-" = false := by
    rw [hline]
    rcases hc with rfl | ⟨rfl, -⟩
    · exact ⟨rfl, rfl⟩
    · exact ⟨rfl, rfl⟩
  rw [svLine_of_readAs env path hread, hstrip]
  exact wordItems_of_source env path path.parent [] hnested hsign.1 hsign.2

/-- The line of a directory is read piece by piece. -/
theorem svLine_incdir (dir : AbsPath) :
    svLine env path (incdirLine dir) =
      (incdirNames dir).map fun name => .emit (.incdir (resolveEntry env path.parent name)) := by
  have hlast : ∀ c ∈ (shlexQuote (PurePath.absText dir).toList).getLast?, isSpace c = false := by
    have hstripped := @last_stripBy isSpace (shlexQuote (PurePath.absText dir).toList)
    rwa [stripBy_quote] at hstripped
  have hend : (incdirLine dir).getLast? = (shlexQuote (PurePath.absText dir).toList).getLast? :=
    List.getLast?_append_of_ne_nil _ (shlexQuote_ne_nil _)
  have hstrip : stripBy isSpace (incdirLine dir) = incdirLine dir := by
    refine stripBy_eq_self ?_ (by rw [hend]; exact hlast)
    show ∀ c ∈ some '+', isSpace c = false
    decide
  have hsplit : shlexSplit (incdirLine dir) =
      some ["+incdir+".toList ++ (PurePath.absText dir).toList] :=
    shlexScan_word_quote "+incdir+".toList _
  have hread : ReadAs (incdirLine dir) ["+incdir+".toList ++ (PurePath.absText dir).toList] :=
    ⟨by rw [hstrip]; rfl, by rw [hstrip, hsplit]⟩
  have hpayload : (incdirLine dir).drop "+incdir+".length =
      shlexQuote (PurePath.absText dir).toList := rfl
  rw [svLine_of_readAs env path hread, hstrip]
  show incdirItems env path.parent ((incdirLine dir).drop "+incdir+".length) = _
  rw [hpayload, incdirItems, incdirNames]
  induction plusPieces (shlexQuote (PurePath.absText dir).toList) with
  | nil => rfl
  | cons piece pieces ih =>
    by_cases hempty : stripQuotes piece = ""
    · simpa [hempty] using ih
    · simpa [hempty] using ih

/-- An open quotation is refused. -/
theorem svLine_open {line : List Char} (hline : line = [] ∨ line = "+incdir+".toList)
    (cs : List Char) : ∃ e, .fail e ∈ svLine env path (line ++ '\'' :: quoteBody cs) := by
  have hstrip : stripBy isSpace (line ++ '\'' :: quoteBody cs) =
      line ++ '\'' :: quoteBody (cs.rdropWhile isSpace) := by
    rw [← rstrip_quoteBody]
    rcases hline with rfl | rfl
    · exact stripBy_cons (by decide) _
    · have htail : "+incdir+".toList ++ '\'' :: quoteBody cs =
          '+' :: ("incdir+".toList ++ '\'' :: quoteBody cs) := rfl
      rw [htail, stripBy_cons (by decide), rstripBy_append (by decide)]
      rfl
  have hignored : isIgnoredLine (line ++ '\'' :: quoteBody (cs.rdropWhile isSpace)) = false := by
    rcases hline with rfl | rfl
    · rfl
    · rfl
  have hsplit : shlexSplit (line ++ '\'' :: quoteBody (cs.rdropWhile isSpace)) = none := by
    rcases hline with rfl | rfl
    · exact shlexScan_open [] _
    · exact shlexScan_open "+incdir+".toList _
  unfold svLine
  simp only [hstrip, hignored, hsplit]
  exact ⟨_, List.mem_singleton_self _⟩

end

/-! ## 3. Directories that are read as they were written -/

/-- The text of the directory has no `+` and no single quote, and ends in no double quote. -/
structure IncdirPlain (dir : AbsPath) : Prop where
  noPlus : '+' ∉ (PurePath.absText dir).toList
  noQuote : '\'' ∉ (PurePath.absText dir).toList
  noEnd : (PurePath.absText dir).toList.getLast? ≠ some '"'

/-- What is left of the directory's text is another path that leads to it. -/
def LinkedBack (env : Env) (base dir : AbsPath) : Prop :=
  ∃ name, incdirNames dir = [name] ∧ name ≠ PurePath.absText dir ∧ resolveEntry env base name = dir

/-- The two forms of a quoted text that starts with a slash. -/
theorem stripQuotes_shlexQuote {cs : List Char} (hlast : ∀ c ∈ cs.getLast?, isQuote c = false)
    (hhead : cs.head? = some '/') :
    stripBy isQuote (shlexQuote cs) = if cs.all isShellSafe then cs else quoteBody cs := by
  have hne : cs ≠ [] := by
    rintro rfl
    cases hhead
  unfold shlexQuote
  rw [if_neg hne]
  split
  · refine stripBy_eq_self ?_ hlast
    rw [hhead]
    decide
  · obtain ⟨rest, rfl⟩ : ∃ rest, cs = '/' :: rest := by
      cases cs with
      | nil => cases hhead
      | cons c rest => exact ⟨rest, by rw [Option.some.inj hhead]⟩
    refine stripBy_between (by decide) (by decide) ?_ ?_ ?_
    · rw [quoteBody_cons]
      simp
    · rw [quoteBody_cons]
      show ∀ c ∈ some '/', isQuote c = false
      decide
    · intro c hc
      rcases List.eq_nil_or_concat ('/' :: rest) with hnil | ⟨init, last, hcs⟩
      · cases hnil
      · rw [hcs, List.concat_eq_append] at hlast hc
        have hquote : isQuote last = false := hlast last (by simp)
        have hend : quoteBody (init ++ [last]) = quoteBody init ++ [last] := by
          unfold quoteBody
          rw [List.flatMap_append, List.flatMap_singleton, if_neg]
          rintro rfl
          cases hquote
        rw [hend, List.getLast?_concat] at hc
        cases hc
        exact hquote

/-- A quoted path without a plus is one piece. -/
theorem plusPieces_quote {cs : List Char} (h : '+' ∉ cs) :
    plusPieces (shlexQuote cs) = [String.ofList (shlexQuote cs)] := by
  have hplus : '+' ∉ shlexQuote cs := fun hmem => h (mem_of_mem_shlexQuote hmem (by decide))
  unfold plusPieces splitOnChar
  rw [stripBy_quote, List.splitOn_eq_singleton hplus]
  simp [shlexQuote_ne_nil]

theorem absText_ne_nil (p : AbsPath) : (PurePath.absText p).toList ≠ [] := by
  rw [toList_absText]
  exact List.cons_ne_nil _ _

theorem head_absText (p : AbsPath) : (PurePath.absText p).toList.head? = some '/' := by
  rw [toList_absText]
  rfl

/-- A plain directory is read as itself. -/
theorem incdirNames_plain {dir : AbsPath} (h : IncdirPlain dir) :
    incdirNames dir = [PurePath.absText dir] := by
  have hlast : ∀ c ∈ (PurePath.absText dir).toList.getLast?, isQuote c = false := by
    intro c hc
    have hsingle : c ≠ '\'' := by
      rintro rfl
      exact h.noQuote (List.mem_of_mem_getLast? hc)
    have hdouble : c ≠ '"' := by
      rintro rfl
      exact h.noEnd hc
    simp [isQuote, hsingle, hdouble]
  have hname : stripQuotes (String.ofList (shlexQuote (PurePath.absText dir).toList)) =
      PurePath.absText dir := by
    rw [stripQuotes, String.toList_ofList, stripQuotes_shlexQuote hlast (head_absText dir),
      quoteBody_of_not_mem h.noQuote, ite_self, String.ofList_toList]
  have hne : PurePath.absText dir ≠ "" := fun heq =>
    absText_ne_nil dir (String.toList_eq_nil_iff.mpr heq)
  rw [incdirNames, plusPieces_quote h.noPlus, List.map_singleton, hname]
  simp [hne]

/-- Only a plain directory is read as itself. -/
theorem plain_of_incdirNames {dir : AbsPath} (h : incdirNames dir = [PurePath.absText dir]) :
    IncdirPlain dir := by
  have hmem : PurePath.absText dir ∈ incdirNames dir := by rw [h]; exact List.mem_singleton_self _
  obtain ⟨piece, hpiece, hname⟩ := List.mem_map.mp (List.mem_filter.mp hmem).1
  have htext : (PurePath.absText dir).toList = stripBy isQuote piece.toList := by
    rw [← hname, stripQuotes, String.toList_ofList]
  have hlast : ∀ c ∈ (PurePath.absText dir).toList.getLast?, isQuote c = false := by
    rw [htext]
    exact last_stripBy
  have hplus : '+' ∉ (PurePath.absText dir).toList := by
    obtain ⟨chars, hchars, rfl⟩ := List.mem_map.mp hpiece
    rw [htext, String.toList_ofList]
    intro hin
    refine not_mem_splitOnChar (List.mem_filter.mp hchars).1 ?_
    exact (List.dropWhile_suffix _).subset ((List.rdropWhile_prefix _ _).subset hin)
  refine ⟨hplus, fun hquote => ?_, fun hend => ?_⟩
  · rw [plusPieces_quote hplus, List.mem_singleton] at hpiece
    rw [hpiece, String.toList_ofList, stripQuotes_shlexQuote hlast (head_absText dir)] at htext
    have hunsafe : ¬(PurePath.absText dir).toList.all isShellSafe = true := by
      intro hall
      have hsafe := List.all_eq_true.mp hall '\'' hquote
      exact absurd hsafe (by decide)
    rw [if_neg hunsafe] at htext
    have hlonger := length_quoteBody hquote
    rw [← htext] at hlonger
    exact absurd hlonger (Nat.lt_irrefl _)
  · have hquote := hlast '"' hend
    cases hquote

/-- Every directory is read as something. -/
theorem incdirNames_ne_nil (dir : AbsPath) : incdirNames dir ≠ [] := by
  have hslash : '/' ∈ shlexQuote (PurePath.absText dir).toList := by
    refine mem_shlexQuote ?_
    rw [toList_absText]
    exact List.mem_cons_self
  obtain ⟨piece, hpiece, hin⟩ := @exists_mem_splitOnChar '+' '/' _ hslash (by decide)
  refine List.ne_nil_of_mem (a := stripQuotes (String.ofList piece)) ?_
  rw [incdirNames, List.mem_filter]
  constructor
  · refine List.mem_map.mpr ⟨String.ofList piece, List.mem_map.mpr ⟨piece, ?_, rfl⟩, rfl⟩
    rw [stripBy_quote, List.mem_filter]
    exact ⟨hpiece, by simpa using List.ne_nil_of_mem hin⟩
  · have hleft := stripBy_ne_nil hin (p := isQuote) (by decide)
    simpa [stripQuotes] using hleft

section

variable {env : Env} {base dir : AbsPath}

/-- An existing canonical path is read as itself. -/
theorem resolveEntry_absText (hnames : ∀ part ∈ dir, IsName part)
    (hreal : env.fs.realpath dir = dir) (hexists : env.fs.exists? dir = true) :
    resolveEntry env base (PurePath.absText dir) = dir := by
  have hjoin : base.join (.ofText (PurePath.absText dir)) = dir := by
    rw [ofText_absText hnames]
    rfl
  rw [resolveEntry, hjoin, resolveThirdpartyPath_of_exists hexists, hreal]

/-- A directory comes back alone exactly when it is plain or linked. -/
theorem incdirNames_back_iff (hnames : ∀ part ∈ dir, IsName part)
    (hreal : env.fs.realpath dir = dir) (hexists : env.fs.exists? dir = true) :
    (incdirNames dir).map (resolveEntry env base) = [dir] ↔
      IncdirPlain dir ∨ LinkedBack env base dir := by
  constructor
  · intro h
    obtain ⟨name, hname, hresolve⟩ := List.map_eq_singleton_iff.mp h
    by_cases hself : name = PurePath.absText dir
    · rw [hself] at hname
      exact .inl (plain_of_incdirNames hname)
    · exact .inr ⟨name, hname, hself, hresolve⟩
  · rintro (hplain | ⟨name, hname, -, hresolve⟩)
    · rw [incdirNames_plain hplain, List.map_singleton, resolveEntry_absText hnames hreal hexists]
    · rw [hname, List.map_singleton, hresolve]

end

/-! ## 4. The whole file -/

/-- The reader gives the written inputs back. -/
def ReadsBack (env : Env) (filelist : AbsPath) (resolved : List AbsPath) (difftest : Bool) : Prop :=
  ∃ entries opened, parseSvFilelist env filelist = .ok (entries, opened) ∧
    rtlFilesOf entries = resolved.filter (fun p => isSourceToken (PurePath.absText p)) ∧
    incdirsOf entries = includeDirs resolved ∧
    ("ECOS_DIFFTEST" ∈ definesOf entries ↔ difftest = true)

/-- No line break, and no quotes after the suffix of a source. -/
structure SourcePlain (p : AbsPath) : Prop where
  oneLine : OneLine (PurePath.absText p).toList
  suffix : isSourceToken (sourceName p) = true → isSourceToken (PurePath.absText p) = true

section

variable {env : Env} {path : AbsPath} {resolved : List AbsPath} {difftest : Bool}
  {description : String}

/-- The paths are canonical, made of names, and there, and so are their parents. -/
structure Existing (env : Env) (p : AbsPath) : Prop where
  names : ∀ part ∈ p, IsName part
  canonical : env.fs.realpath p = p
  exists? : env.fs.exists? p = true

/-- What is read of a source line. -/
def sourceEntries (env : Env) (base : AbsPath) (p : AbsPath) : List SvEntry :=
  if isSourceToken (sourceName p) then [.rtl (resolveEntry env base (sourceName p))] else []

def incdirEntries (env : Env) (base : AbsPath) (dir : AbsPath) : List SvEntry :=
  (incdirNames dir).map fun name => .incdir (resolveEntry env base name)

def generatedEntries (env : Env) (base : AbsPath) (resolved : List AbsPath) (difftest : Bool) :
    List SvEntry :=
  (if difftest then [.define "ECOS_DIFFTEST"] else []) ++
    (includeDirs resolved).flatMap (incdirEntries env base) ++
    resolved.flatMap (sourceEntries env base)

/-- The name read on a source line, when it is one of a source, is there. -/
def SourceFound (env : Env) (base p : AbsPath) : Prop :=
  isSourceToken (sourceName p) = true →
    env.fs.exists? (resolveEntry env base (sourceName p)) = true

/-- What the line of a source is read as. -/
theorem sourceItems_eq {base p : AbsPath} (line : List Char) :
    sourceItems env path base line (PurePath.absText p).toList =
      if isSourceToken (sourceName p) then
        if env.fs.exists? (resolveEntry env base (sourceName p)) then
          [.emit (.rtl (resolveEntry env base (sourceName p)))]
        else
          [.fail (.fileNotFound ("RTL source not found in " ++ PurePath.absText path ++ ": " ++
            String.ofList line))]
      else [] := by
  have hname : stripQuotes (String.ofList (PurePath.absText p).toList) = sourceName p := by
    rw [String.ofList_toList]
    rfl
  rw [sourceItems, hname]
  cases isSourceToken (sourceName p) <;> rfl

/-- The line of a source that is found names it. -/
theorem svLine_source_emits {p : AbsPath} (hnames : ∀ part ∈ p, IsName part)
    (hfound : SourceFound env path.parent p) :
    svLine env path (sourceLine p) = (sourceEntries env path.parent p).map .emit := by
  rw [svLine_source hnames, sourceItems_eq, sourceEntries]
  by_cases htoken : isSourceToken (sourceName p) = true
  · rw [if_pos htoken, if_pos htoken, if_pos (hfound htoken)]
    rfl
  · rw [if_neg htoken, if_neg htoken]
    rfl

/-- A line that does not fail found its source. -/
theorem sourceFound_of_no_fail {p : AbsPath} (hnames : ∀ part ∈ p, IsName part)
    (hfail : ∀ e, .fail e ∉ svLine env path (sourceLine p)) : SourceFound env path.parent p := by
  intro htoken
  by_contra hmissing
  rw [svLine_source hnames, sourceItems_eq, if_pos htoken, if_neg hmissing] at hfail
  exact hfail _ (List.mem_singleton_self _)

/-- The name of a source ends in `v`. -/
theorem last_of_isSourceToken {text : String} (h : isSourceToken text = true) {c : Char}
    (hc : c ∈ text.toList.getLast?) : c = 'v' := by
  have hsuffix : ['v'] <:+ text.toList := by
    unfold isSourceToken endsWith at h
    rw [Bool.or_eq_true, List.isSuffixOf_iff_suffix, List.isSuffixOf_iff_suffix] at h
    rcases h with hv | hsv
    · exact .trans ⟨['.'], rfl⟩ hv
    · exact .trans ⟨['.', 's'], rfl⟩ hsv
  obtain ⟨init, hinit⟩ := hsuffix
  rw [← hinit, List.getLast?_concat] at hc
  exact (Option.some.inj hc).symm

/-- The name of a source is its text, when its text is one of a source. -/
theorem sourceName_of_token {p : AbsPath} (h : isSourceToken (PurePath.absText p) = true) :
    sourceName p = PurePath.absText p := by
  have hlast : ∀ c ∈ (PurePath.absText p).toList.getLast?, isQuote c = false := by
    intro c hc
    rw [last_of_isSourceToken h hc]
    rfl
  rw [sourceName, stripQuotes, stripBy_eq_self (by rw [head_absText]; decide) hlast,
    String.ofList_toList]

theorem sourceEntries_of_token {p : AbsPath} (hexisting : Existing env p) {base : AbsPath}
    (h : isSourceToken (PurePath.absText p) = true) : sourceEntries env base p = [.rtl p] := by
  rw [sourceEntries, sourceName_of_token h, if_pos h,
    resolveEntry_absText hexisting.names hexisting.canonical hexisting.exists?]

/-- A plain source gives itself or nothing. -/
theorem sourceEntries_plain {p : AbsPath} (hexisting : Existing env p) {base : AbsPath}
    (hplain : SourcePlain p) : sourceEntries env base p =
      if isSourceToken (PurePath.absText p) then [.rtl p] else [] := by
  by_cases htoken : isSourceToken (PurePath.absText p) = true
  · rw [if_pos htoken, sourceEntries_of_token hexisting htoken]
  · rw [if_neg htoken, sourceEntries, if_neg fun h => htoken (hplain.suffix h)]

/-- An existing source with a plain path is found. -/
theorem sourceFound_plain {p : AbsPath} (hexisting : Existing env p) {base : AbsPath}
    (hplain : SourcePlain p) : SourceFound env base p := by
  intro htoken
  rw [sourceName_of_token (hplain.suffix htoken),
    resolveEntry_absText hexisting.names hexisting.canonical hexisting.exists?]
  exact hexisting.exists?

/-! ### The items of the file -/

/-- The machine holds the generated text. -/
structure Holds (env : Env) (path : AbsPath) (lines : List (List Char)) : Prop where
  canonical : env.fs.realpath path = path
  content : env.fs.readBytes path = some (encode (joinLines lines))

/-- A generated filelist is read line by line. -/
theorem svItems_of_holds {lines : List (List Char)} (h : Holds env path lines) :
    svItems env path = (textLines (joinLines lines)).flatMap (svLine env path) := by
  rw [svItems, FileSystem.exists_of_readBytes h.content, h.content]
  simp only [decode_encode]
  rfl

/-- What the generated lines are read as. -/
theorem svItems_generated (hholds : Holds env path (generatedLines resolved difftest description))
    (hlines : ∀ line ∈ generatedLines resolved difftest description, OneLine line)
    (hnames : ∀ p ∈ resolved, ∀ part ∈ p, IsName part)
    (hfound : ∀ p ∈ resolved, SourceFound env path.parent p) :
    svItems env path = (generatedEntries env path.parent resolved difftest).map .emit := by
  have hdefine : (if difftest then ["+define+ECOS_DIFFTEST".toList] else []).flatMap
      (svLine env path) = (if difftest then [.define "ECOS_DIFFTEST"] else []).map .emit := by
    cases difftest
    · rfl
    · rfl
  have hincdirs : ((includeDirs resolved).map incdirLine).flatMap (svLine env path) =
      ((includeDirs resolved).flatMap (incdirEntries env path.parent)).map .emit := by
    rw [List.flatMap_map, List.map_flatMap]
    refine List.flatMap_congr fun dir _ => ?_
    rw [svLine_incdir, incdirEntries, List.map_map]
    rfl
  have hsources : (resolved.map sourceLine).flatMap (svLine env path) =
      (resolved.flatMap (sourceEntries env path.parent)).map .emit := by
    rw [List.flatMap_map, List.map_flatMap]
    exact List.flatMap_congr fun p hp => svLine_source_emits (hnames p hp) (hfound p hp)
  have hne : generatedLines resolved difftest description ≠ [] := List.cons_ne_nil _ _
  rw [svItems_of_holds hholds, textLines_joinLines hne hlines, generatedLines,
    List.flatMap_cons, svLine_header, List.nil_append, List.flatMap_append, List.flatMap_append,
    hdefine, hincdirs, hsources, generatedEntries, List.map_append, List.map_append]

/-! ### The answer -/

/-- A function that gives something for every element gives each element alone, when the whole
is the list itself. -/
theorem flatMap_eq_self {α : Type} {f : α → List α} (hne : ∀ x, f x ≠ []) :
    ∀ {l : List α}, l.flatMap f = l → ∀ x ∈ l, f x = [x]
  | [], _ => by simp
  | x :: l, h => by
      have hle : ∀ l : List α, l.length ≤ (l.flatMap f).length := by
        intro l
        induction l with
        | nil => exact Nat.le_refl _
        | cons y l ih =>
          have hpos := List.length_pos_of_ne_nil (hne y)
          rw [List.flatMap_cons, List.length_append, List.length_cons]
          omega
      obtain ⟨y, ys, hy⟩ := List.exists_cons_of_ne_nil (hne x)
      rw [List.flatMap_cons, hy, List.cons_append, List.cons.injEq] at h
      have hys : ys = [] := by
        have hlength := congrArg List.length h.2
        have hrest := hle l
        rw [List.length_append] at hlength
        exact List.eq_nil_of_length_eq_zero (by omega)
      have hrest : l.flatMap f = l := by simpa [hys] using h.2
      intro z hz
      rcases List.mem_cons.mp hz with rfl | hmem
      · rw [hy, hys, h.1]
      · exact flatMap_eq_self hne hrest z hmem

theorem rtlFilesOf_append (a b : List SvEntry) :
    rtlFilesOf (a ++ b) = rtlFilesOf a ++ rtlFilesOf b := List.filterMap_append

theorem incdirsOf_append (a b : List SvEntry) :
    incdirsOf (a ++ b) = incdirsOf a ++ incdirsOf b := List.filterMap_append

theorem definesOf_append (a b : List SvEntry) :
    definesOf (a ++ b) = definesOf a ++ definesOf b := List.filterMap_append

theorem of_incdirEntries (base dir : AbsPath) :
    rtlFilesOf (incdirEntries env base dir) = [] ∧
      incdirsOf (incdirEntries env base dir) = (incdirNames dir).map (resolveEntry env base) ∧
      definesOf (incdirEntries env base dir) = [] := by
  unfold incdirEntries rtlFilesOf incdirsOf definesOf
  induction incdirNames dir with
  | nil => exact ⟨rfl, rfl, rfl⟩
  | cons name names ih => exact ⟨ih.1, congrArg (resolveEntry env base name :: ·) ih.2.1, ih.2.2⟩

theorem of_sourceEntries (base p : AbsPath) :
    incdirsOf (sourceEntries env base p) = [] ∧ definesOf (sourceEntries env base p) = [] := by
  unfold sourceEntries
  split
  · exact ⟨rfl, rfl⟩
  · exact ⟨rfl, rfl⟩

theorem rtlFilesOf_flatMap {α : Type} (l : List α) (f : α → List SvEntry) :
    rtlFilesOf (l.flatMap f) = l.flatMap fun x => rtlFilesOf (f x) := List.filterMap_flatMap

theorem incdirsOf_flatMap {α : Type} (l : List α) (f : α → List SvEntry) :
    incdirsOf (l.flatMap f) = l.flatMap fun x => incdirsOf (f x) := List.filterMap_flatMap

theorem definesOf_flatMap {α : Type} (l : List α) (f : α → List SvEntry) :
    definesOf (l.flatMap f) = l.flatMap fun x => definesOf (f x) := List.filterMap_flatMap

/-- The sources, include directories and defines of the answer. -/
theorem of_generatedEntries (base : AbsPath) :
    rtlFilesOf (generatedEntries env base resolved difftest) =
        resolved.flatMap (fun p => rtlFilesOf (sourceEntries env base p)) ∧
      incdirsOf (generatedEntries env base resolved difftest) =
        (includeDirs resolved).flatMap
          (fun dir => (incdirNames dir).map (resolveEntry env base)) ∧
      definesOf (generatedEntries env base resolved difftest) =
        if difftest then ["ECOS_DIFFTEST"] else [] := by
  have hincdirs : ∀ dir, rtlFilesOf (incdirEntries env base dir) = [] ∧ _ ∧ _ :=
    fun dir => of_incdirEntries base dir
  have hsources : ∀ p, incdirsOf (sourceEntries env base p) = [] ∧ _ :=
    fun p => of_sourceEntries base p
  have hnil : ∀ {α β : Type} (l : List α), l.flatMap (fun _ => ([] : List β)) = [] := fun l =>
    List.flatMap_eq_nil_iff.mpr fun _ _ => rfl
  have hdefine : ∀ define : List SvEntry, define = (if difftest then [.define "ECOS_DIFFTEST"] else []) →
      rtlFilesOf define = [] ∧ incdirsOf define = [] ∧
        definesOf define = if difftest then ["ECOS_DIFFTEST"] else [] := by
    rintro define rfl
    cases difftest
    · exact ⟨rfl, rfl, rfl⟩
    · exact ⟨rfl, rfl, rfl⟩
  unfold generatedEntries
  generalize hd : (if difftest then [SvEntry.define "ECOS_DIFFTEST"] else []) = define
  obtain ⟨hrtl, hincdir, hdef⟩ := hdefine define hd.symm
  refine ⟨?_, ?_, ?_⟩
  · rw [rtlFilesOf_append, rtlFilesOf_append, hrtl, rtlFilesOf_flatMap, rtlFilesOf_flatMap]
    simp only [hincdirs, List.nil_append, hnil]
  · rw [incdirsOf_append, incdirsOf_append, hincdir, incdirsOf_flatMap, incdirsOf_flatMap]
    simp only [hincdirs, hsources, List.nil_append, List.append_nil, hnil]
  · rw [definesOf_append, definesOf_append, hdef, definesOf_flatMap, definesOf_flatMap]
    simp only [hincdirs, hsources, List.append_nil, hnil]

/-! ### The condition -/

/-- The include directories are the parents of the sources. -/
theorem mem_includeDirs {dir : AbsPath} :
    dir ∈ includeDirs resolved ↔ ∃ p ∈ resolved, p.parent = dir := by
  rw [includeDirs, mem_firstSeen, List.mem_map]

/-- Lines of plain sources have no break. -/
theorem oneLine_generated (hdescription : OneLine description.toList)
    (hplain : ∀ p ∈ resolved, OneLine (PurePath.absText p).toList) :
    ∀ line ∈ generatedLines resolved difftest description, OneLine line := by
  intro line hline
  have happend : ∀ {a b : List Char}, OneLine a → OneLine b → OneLine (a ++ b) := by
    intro a b ha hb c hc
    exact (List.mem_append.mp hc).elim (ha c) (hb c)
  rw [generatedLines, List.mem_cons, List.mem_append, List.mem_append] at hline
  rcases hline with rfl | (hdefine | hincdir) | hsource
  · exact happend (by unfold OneLine; decide) hdescription
  · cases difftest with
    | false => cases hdefine
    | true =>
      rw [List.mem_singleton.mp hdefine]
      unfold OneLine
      decide
  · obtain ⟨dir, hdir, rfl⟩ := List.mem_map.mp hincdir
    obtain ⟨p, hp, rfl⟩ := mem_includeDirs.mp hdir
    exact happend (by unfold OneLine; decide)
      (oneLine_quote fun c hc => hplain p hp c (mem_absText_parent hc))
  · obtain ⟨p, hp, rfl⟩ := List.mem_map.mp hsource
    exact oneLine_quote (hplain p hp)

/-- A source with a line break is refused. -/
theorem fail_of_break (hholds : Holds env path (generatedLines resolved difftest description))
    (hdescription : OneLine description.toList)
    (hbreak : ¬∀ p ∈ resolved, OneLine (PurePath.absText p).toList) :
    ∃ e, .fail e ∈ svItems env path := by
  have hlines : ¬∀ line ∈ generatedLines resolved difftest description, OneLine line := by
    intro hall
    refine hbreak fun p hp c hc => ?_
    refine hall (sourceLine p) ?_ c (mem_shlexQuote hc)
    exact List.mem_cons_of_mem _ (List.mem_append_right _ (List.mem_map_of_mem hp))
  obtain ⟨line, hline, hcut, hread⟩ := mem_textLines_cut hlines
  have hopen : ∀ opening : List Char, (opening = [] ∨ opening = "+incdir+".toList) →
      ∀ cs, line = opening ++ shlexQuote cs → ∃ e, .fail e ∈ svLine env path (firstLine line) := by
    intro opening hopening cs hform
    have hclean : OneLine opening := by
      rcases hopening with rfl | rfl
      · unfold OneLine
        decide
      · unfold OneLine
        decide
    have hcs : ¬OneLine cs := fun h => hcut (by
      rw [hform]
      intro c hc
      exact (List.mem_append.mp hc).elim (hclean c) (oneLine_quote h c))
    obtain ⟨c, post, hquote, hc⟩ := firstLine_quote hcs
    have hbegin : OneLine (opening ++ '\'' :: quoteBody (firstLine cs)) := by
      intro d hd
      rcases List.mem_append.mp hd with hd | hd
      · exact hclean d hd
      · rcases List.mem_cons.mp hd with rfl | hd
        · rfl
        · exact oneLine_quoteBody (oneLine_firstLine cs) d hd
    rw [hform, hquote, ← List.append_assoc, firstLine_append hbegin hc]
    exact svLine_open hopening _
  rw [svItems_of_holds hholds]
  have hfail : ∃ e, .fail e ∈ svLine env path (firstLine line) := by
    rw [generatedLines, List.mem_cons, List.mem_append, List.mem_append] at hline
    rcases hline with rfl | (hdefine | hincdir) | hsource
    · refine absurd (fun c hc => ?_) hcut
      rcases List.mem_append.mp hc with hc | hc
      · have hall : ∀ c ∈ "# Generated by ecc-fe from ".toList, isLineBreak c = false := by decide
        exact hall c hc
      · exact hdescription c hc
    · cases difftest with
      | false => cases hdefine
      | true =>
        rw [List.mem_singleton.mp hdefine] at hcut
        exact absurd (by unfold OneLine; decide) hcut
    · obtain ⟨dir, -, rfl⟩ := List.mem_map.mp hincdir
      exact hopen _ (.inr rfl) _ rfl
    · obtain ⟨p, -, rfl⟩ := List.mem_map.mp hsource
      exact hopen [] (.inl rfl) _ rfl
  obtain ⟨e, he⟩ := hfail
  exact ⟨e, List.mem_flatMap.mpr ⟨_, hread, he⟩⟩

/-- Two counts agree only when the predicates do. -/
theorem of_countP_eq {α : Type} {p q : α → Bool} (hpq : ∀ x, p x = true → q x = true) :
    ∀ {l : List α}, l.countP p = l.countP q → ∀ x ∈ l, q x = true → p x = true
  | [], _ => by simp
  | x :: l, h => by
      have hle : l.countP p ≤ l.countP q := List.countP_mono_left fun x _ => hpq x
      rw [List.countP_cons, List.countP_cons] at h
      have hhead : q x = true → p x = true := by
        intro hq
        by_contra hp
        rw [if_pos hq, if_neg hp] at h
        omega
      have hrest : l.countP p = l.countP q := by
        by_cases hp : p x = true
        · rw [if_pos hp, if_pos (hpq x hp)] at h
          omega
        · rw [if_neg hp, if_neg fun hq => hp (hhead hq)] at h
          omega
      intro y hy
      rcases List.mem_cons.mp hy with rfl | hmem
      · exact hhead
      · exact of_countP_eq hpq hrest y hmem

/-- How many sources come back. -/
theorem length_rtlFilesOf_sources (base : AbsPath) :
    (resolved.flatMap fun p => rtlFilesOf (sourceEntries env base p)).length =
      resolved.countP fun p => isSourceToken (sourceName p) := by
  induction resolved with
  | nil => rfl
  | cons p resolved ih =>
    rw [List.flatMap_cons, List.length_append, ih, List.countP_cons, Nat.add_comm]
    unfold sourceEntries
    by_cases htoken : isSourceToken (sourceName p) = true
    · rw [if_pos htoken, if_pos htoken]
      rfl
    · rw [if_neg htoken, if_neg htoken]
      rfl

/-- Only plain sources come back. -/
theorem sourcePlain_of_rtlFiles {base : AbsPath}
    (hlines : ∀ p ∈ resolved, OneLine (PurePath.absText p).toList)
    (hrtl : (resolved.flatMap fun p => rtlFilesOf (sourceEntries env base p)) =
      resolved.filter fun p => isSourceToken (PurePath.absText p)) :
    ∀ p ∈ resolved, SourcePlain p := by
  have hcount := congrArg List.length hrtl
  rw [length_rtlFilesOf_sources, ← List.countP_eq_length_filter] at hcount
  have htoken : ∀ p, isSourceToken (PurePath.absText p) = true →
      isSourceToken (sourceName p) = true := by
    intro p h
    rwa [sourceName_of_token h]
  exact fun p hp => ⟨hlines p hp, of_countP_eq htoken hcount.symm p hp⟩

/-- The sources of a plain list come back. -/
theorem rtlFiles_of_sourcePlain {base : AbsPath} (hexisting : ∀ p ∈ resolved, Existing env p)
    (hplain : ∀ p ∈ resolved, SourcePlain p) :
    (resolved.flatMap fun p => rtlFilesOf (sourceEntries env base p)) =
      resolved.filter fun p => isSourceToken (PurePath.absText p) := by
  induction resolved with
  | nil => rfl
  | cons p resolved ih =>
    have hp : p ∈ p :: resolved := List.mem_cons_self
    rw [List.flatMap_cons, ih (fun q hq => hexisting q (List.mem_cons_of_mem p hq))
        fun q hq => hplain q (List.mem_cons_of_mem p hq),
      sourceEntries_plain (hexisting p hp) (hplain p hp)]
    by_cases htoken : isSourceToken (PurePath.absText p) = true
    · rw [if_pos htoken, List.filter_cons, if_pos htoken]
      rfl
    · rw [if_neg htoken, List.filter_cons, if_neg htoken]
      rfl

/-- A filelist of entries alone parses to them. -/
theorem parse_of_emits {entries : List SvEntry} (hcanonical : env.fs.realpath path = path)
    (h : svItems env path = entries.map .emit) :
    parseSvFilelist env path = .ok (entries, [path]) := by
  rw [parseSvFilelist, hcanonical]
  exact expandFrom_of_emits h

/-- A filelist that parses has no line that fails. -/
theorem no_fail_of_parse (hcanonical : env.fs.realpath path = path)
    {answer : List SvEntry × List AbsPath} (h : parseSvFilelist env path = .ok answer) :
    ∀ e, .fail e ∉ svItems env path := by
  rw [parseSvFilelist, hcanonical] at h
  exact fun e => no_fail_of_ok h .refl e

/-- What comes back is what was written exactly when the sources are plain, and every include
directory is plain or linked. -/
theorem readsBack_iff (hholds : Holds env path (generatedLines resolved difftest description))
    (hdescription : OneLine description.toList) (hexisting : ∀ p ∈ resolved, Existing env p)
    (hdirs : ∀ dir ∈ includeDirs resolved, Existing env dir) :
    ReadsBack env path resolved difftest ↔ (∀ p ∈ resolved, SourcePlain p) ∧
      ∀ dir ∈ includeDirs resolved, IncdirPlain dir ∨ LinkedBack env path.parent dir := by
  obtain ⟨hrtl, hincdirs, hdefines⟩ :=
    @of_generatedEntries env resolved difftest path.parent
  have hback : ∀ dir ∈ includeDirs resolved,
      (incdirNames dir).map (resolveEntry env path.parent) = [dir] ↔ _ := fun dir hdir =>
    incdirNames_back_iff (hdirs dir hdir).names (hdirs dir hdir).canonical (hdirs dir hdir).exists?
  constructor
  · rintro ⟨entries, opened, hparse, hrtlBack, hincdirsBack, -⟩
    have hno := no_fail_of_parse hholds.canonical hparse
    have hlines : ∀ p ∈ resolved, OneLine (PurePath.absText p).toList := by
      by_contra hbreak
      obtain ⟨e, he⟩ := fail_of_break hholds hdescription hbreak
      exact hno e he
    have hclean : ∀ line ∈ generatedLines resolved difftest description, OneLine line :=
      oneLine_generated hdescription hlines
    have hfound : ∀ p ∈ resolved, SourceFound env path.parent p := by
      intro p hp
      refine sourceFound_of_no_fail (hexisting p hp).names fun e he => hno e ?_
      have hne : generatedLines resolved difftest description ≠ [] := List.cons_ne_nil _ _
      rw [svItems_of_holds hholds, textLines_joinLines hne hclean]
      refine List.mem_flatMap.mpr ⟨sourceLine p, ?_, he⟩
      exact List.mem_cons_of_mem _ (List.mem_append_right _ (List.mem_map_of_mem hp))
    have hitems := svItems_generated hholds hclean (fun p hp => (hexisting p hp).names) hfound
    rw [parse_of_emits hholds.canonical hitems] at hparse
    cases hparse
    rw [hrtl] at hrtlBack
    rw [hincdirs] at hincdirsBack
    have hne : ∀ dir, (incdirNames dir).map (resolveEntry env path.parent) ≠ [] := fun dir hnil =>
      incdirNames_ne_nil dir (List.map_eq_nil_iff.mp hnil)
    refine ⟨sourcePlain_of_rtlFiles hlines hrtlBack, fun dir hdir => ?_⟩
    exact (hback dir hdir).mp (flatMap_eq_self hne hincdirsBack dir hdir)
  · rintro ⟨hplain, hdirsBack⟩
    have hclean : ∀ line ∈ generatedLines resolved difftest description, OneLine line :=
      oneLine_generated hdescription fun p hp => (hplain p hp).oneLine
    have hitems := svItems_generated hholds hclean (fun p hp => (hexisting p hp).names)
      fun p hp => sourceFound_plain (hexisting p hp) (hplain p hp)
    refine ⟨_, _, parse_of_emits hholds.canonical hitems, ?_, ?_, ?_⟩
    · rw [hrtl]
      exact rtlFiles_of_sourcePlain hexisting hplain
    · rw [hincdirs, List.flatMap_congr fun dir hdir => (hback dir hdir).mpr (hdirsBack dir hdir)]
      simp
    · rw [hdefines]
      cases difftest <;> simp

end

/-! ## 5. Round trip -/

/-- The sources of a written list exist, and its text holds a plain description. -/
structure Written (env : Env) (sources : List String) (description : String) : Prop where
  tree : env.fs.IsTree
  sources : ∀ p ∈ resolvedSources env sources, env.fs.exists? p = true
  description : OneLine description.toList

/-- What the prepare step reads of a generated filelist is what went into it, exactly when the
sources are plain, and every include directory is plain or linked. -/
theorem generated_readsBack_iff (env : Env) (filelistPath : AbsPath) (sources : List String)
    (enableDifftest : Bool) (description : String) (h : Written env sources description) :
    let written := writeGeneratedRtlFilelist env filelistPath sources enableDifftest description
    let resolved := resolvedSources env sources
    ReadsBack written.1 written.2 resolved (addsDifftest env resolved enableDifftest) ↔
      (∀ p ∈ resolved, SourcePlain p) ∧
        ∀ dir ∈ includeDirs resolved,
          IncdirPlain dir ∨ LinkedBack written.1 written.2.parent dir := by
  intro written resolved
  have hexisting : ∀ p ∈ resolved, Existing env p := by
    intro p hp
    obtain ⟨source, -, rfl⟩ := List.mem_map.mp (mem_firstSeen.mp hp)
    have hcanonical := env.host.realpath_resolve (env.host.expanduser (.ofText source))
    exact ⟨h.tree.names_of_exists hcanonical (h.sources _ hp), hcanonical, h.sources _ hp⟩
  have hdirs : ∀ dir ∈ includeDirs resolved, Existing env dir := by
    intro dir hdir
    obtain ⟨p, hp, rfl⟩ := mem_includeDirs.mp hdir
    obtain ⟨hnames, hcanonical, hexists⟩ := hexisting p hp
    obtain ⟨hparent, hparentExists⟩ := h.tree.parent_of_exists hcanonical hexists
    exact ⟨fun part hpart => hnames part ((List.dropLast_sublist p).mem hpart), hparent, hparentExists⟩
  have hkept : ∀ p, Existing env p → Existing written.1 p := fun p hp =>
    ⟨hp.names, hp.canonical, FileSystem.exists_create hp.exists?⟩
  have hholds : Holds written.1 written.2
      (generatedLines resolved (addsDifftest env resolved enableDifftest) description) := by
    refine ⟨env.fs.realpath_idem _, ?_⟩
    have hread : written.1.fs.readBytes filelistPath = some _ := FileSystem.readBytes_create
    rw [FileSystem.readBytes, ← FileSystem.node_realpath, ← FileSystem.readBytes] at hread
    exact hread
  exact readsBack_iff hholds h.description (fun p hp => hkept p (hexisting p hp))
    fun dir hdir => hkept dir (hdirs dir hdir)

/-- A machine with one source in the directory `dir`. -/
def sourceEnv (dir : String) : Env :=
  .ofNodes [([], .directory), ([dir], .directory), ([dir, "cpu.v"], .file [] 0)]

/-- A directory with a blank in its name. -/
theorem generated_readsBack_blank :
    let written := writeGeneratedRtlFilelist (sourceEnv "my cpu") ["ws", "cpu.f"] ["/my cpu/cpu.v"]
      true "selected CPU RTL files"
    ReadsBack written.1 written.2 [["my cpu", "cpu.v"]] false := by
  intro written
  have hwritten : Written (sourceEnv "my cpu") ["/my cpu/cpu.v"] "selected CPU RTL files" :=
    ⟨⟨by decide, by decide⟩, by decide, by unfold OneLine; decide⟩
  refine (generated_readsBack_iff (sourceEnv "my cpu") ["ws", "cpu.f"] ["/my cpu/cpu.v"] true _
    hwritten).mpr ⟨?_, ?_⟩
  · intro p hp
    have hresolved : resolvedSources (sourceEnv "my cpu") ["/my cpu/cpu.v"] =
        [["my cpu", "cpu.v"]] := by decide
    rw [hresolved, List.mem_singleton] at hp
    subst hp
    exact ⟨by unfold OneLine; decide, by decide⟩
  · intro dir hdir
    have hdirs : includeDirs (resolvedSources (sourceEnv "my cpu") ["/my cpu/cpu.v"]) =
        [["my cpu"]] := by decide
    rw [hdirs, List.mem_singleton] at hdir
    subst hdir
    exact .inl ⟨by decide, by decide, by decide⟩

/-- The directory `/c++` comes back as `/c`. -/
theorem generated_plus_not_back :
    let written := writeGeneratedRtlFilelist (sourceEnv "c++") ["ws", "cpu.f"] ["/c++/cpu.v"]
      true "selected CPU RTL files"
    Written (sourceEnv "c++") ["/c++/cpu.v"] "selected CPU RTL files" ∧
      ¬ReadsBack written.1 written.2 [["c++", "cpu.v"]] false := by
  intro written
  refine ⟨⟨⟨by decide, by decide⟩, by decide, by unfold OneLine; decide⟩, ?_⟩
  rintro ⟨entries, opened, hparse, -, hincdirs, -⟩
  have hrun : parseSvFilelist written.1 written.2 =
      .ok ([.incdir ["c"], .rtl ["c++", "cpu.v"]], [["ws", "cpu.f"]]) := by
    rfl
  rw [hrun] at hparse
  cases hparse
  exact absurd hincdirs (by decide)

end EccFe.Tools.Prepare
