/-
EccFe.Tools.Prepare.Filelist — `PrepareStep._parse_sv_filelist` of
`fecompiler/tools/prepare/runner.py`.

The strict reader of the filelist language. It looks at stripped lines, takes one
source or one nested list from a line, relocates third-party paths, and raises on
a missing file, an open quotation, or a file that is no UTF-8 text.
-/
import EccFe.Resources
import EccFe.Python.Shlex
import EccFe.Search.Expand

namespace EccFe.Tools.Prepare

open Python Search Resources

/-- What a filelist contributes, in the order the reader meets it. -/
inductive SvEntry where
  | rtl (path : AbsPath)
  | incdir (path : AbsPath)
  | define (text : String)
  deriving DecidableEq

inductive PrepareError where
  | fileNotFound (message : String)
  | valueError (message : String)
  /-- `read_text` raises `OSError`: a directory. -/
  | osError (path : AbsPath)
  | unicodeDecodeError (path : AbsPath)
  deriving DecidableEq

/-- `base / text` with the third-party search. -/
def resolveEntry (env : Env) (base : AbsPath) (text : String) : AbsPath :=
  resolveThirdpartyPath env (base.join (.ofText text))

/-- The nonempty pieces between `+` of an option's payload. -/
def plusPieces (payload : List Char) : List String :=
  ((splitOnChar '+' (stripBy isSpace payload)).filter (· ≠ [])).map String.ofList

def isIgnoredLine (line : List Char) : Bool :=
  line.isEmpty || startsWith line "#" || startsWith line "//" || startsWith line "`"

def isNestedOption (option : List Char) : Bool := option == "-f".toList || option == "-F".toList

def isSourceToken (token : String) : Bool :=
  endsWith token.toList ".v" || endsWith token.toList ".sv"

/-- The nested list named by the words after `-f`. -/
def nestedItems (env : Env) (base : AbsPath) (rest : List (List Char)) :
    List (Item AbsPath SvEntry PrepareError) :=
  let nestedRef := strip (String.ofList (rest.head?.getD []))
  if nestedRef = "" then [] else [.child (resolveEntry env base (stripQuotes nestedRef))]

def incdirItems (env : Env) (base : AbsPath) (payload : List Char) :
    List (Item AbsPath SvEntry PrepareError) :=
  ((plusPieces payload).map stripQuotes).filterMap fun inc =>
    if inc = "" then none else some (.emit (.incdir (resolveEntry env base inc)))

def defineItems (payload : List Char) : List (Item AbsPath SvEntry PrepareError) :=
  ((plusPieces payload).map strip).filterMap fun define =>
    if define = "" then none else some (.emit (.define define))

/-- A line that is no option. -/
def sourceItems (env : Env) (path base : AbsPath) (line : List Char) (first : List Char) :
    List (Item AbsPath SvEntry PrepareError) :=
  let token := stripQuotes (String.ofList first)
  if !isSourceToken token then []
  else
    let src := resolveEntry env base token
    if env.fs.exists? src then [.emit (.rtl src)]
    else
      [.fail (.fileNotFound ("RTL source not found in " ++ PurePath.absText path ++ ": " ++
        String.ofList line))]

/-- The loop body, for the words of a line. -/
def wordItems (env : Env) (path base : AbsPath) (line : List Char) (words : List (List Char)) :
    List (Item AbsPath SvEntry PrepareError) :=
  let option := words.head?.getD []
  if isNestedOption option then nestedItems env base words.tail
  else if startsWith line "+incdir+" then incdirItems env base (line.drop "+incdir+".length)
  else if startsWith line "+define+" then defineItems (line.drop "+define+".length)
  else if startsWith line "+" || startsWith line "-" then []
  else sourceItems env path base line option

/-- What one line of the filelist `path` contributes. -/
def svLine (env : Env) (path : AbsPath) (raw : List Char) :
    List (Item AbsPath SvEntry PrepareError) :=
  let line := stripBy isSpace raw
  if isIgnoredLine line then []
  else
    match shlexSplit line with
    | none =>
        [.fail (.valueError ("invalid filelist entry in " ++ PurePath.absText path ++ ": " ++
          String.ofList line))]
    | some words => wordItems env path path.parent line words

/-- One call on the resolved path of a filelist. -/
def svItems (env : Env) (path : AbsPath) : List (Item AbsPath SvEntry PrepareError) :=
  if !env.fs.exists? path then
    [.fail (.fileNotFound ("filelist not found: " ++ PurePath.absText path))]
  else
    match env.fs.readBytes path with
    | none => [.fail (.osError path)]
    | some bytes =>
        match decode bytes with
        | none => [.fail (.unicodeDecodeError path)]
        | some text => (textLines text).flatMap (svLine env path)

/-- `_parse_sv_filelist(root)`: its entries in order and the filelists it opened. -/
def parseSvFilelist (env : Env) (root : AbsPath) :
    Except (ExpandError PrepareError) (List SvEntry × List AbsPath) :=
  expandFrom (svItems env) env.fs.files (env.fs.realpath root)

/-- `["rtl_files"]` of the answer. -/
def rtlFilesOf (entries : List SvEntry) : List AbsPath :=
  entries.filterMap fun
    | .rtl path => some path
    | _ => none

theorem mem_rtlFilesOf {entries : List SvEntry} {p : AbsPath} :
    p ∈ rtlFilesOf entries ↔ .rtl p ∈ entries := by
  rw [rtlFilesOf, List.mem_filterMap]
  constructor
  · rintro ⟨entry, hmem, heq⟩
    cases entry with
    | rtl path =>
      cases heq
      exact hmem
    | incdir _ | define _ => cases heq
  · exact fun h => ⟨.rtl p, h, rfl⟩

/-! ## 2. Only files include others -/

theorem readBytes_of_includes {env : Env} {x c : AbsPath} (h : Includes (svItems env) x c) :
    ∃ bytes text, env.fs.readBytes x = some bytes ∧ decode bytes = some text ∧
      ∃ line ∈ textLines text, .child c ∈ svLine env x line := by
  rw [Includes, svItems] at h
  split at h
  · simp at h
  · split at h
    · simp at h
    · rename_i bytes hread
      split at h
      · simp at h
      · rename_i text htext
        obtain ⟨line, hline, hmem⟩ := List.mem_flatMap.mp h
        exact ⟨bytes, text, hread, htext, line, hline, hmem⟩

/-- The line, stripped, is read, and these are its words. -/
structure ReadAs (raw : List Char) (words : List (List Char)) : Prop where
  notIgnored : isIgnoredLine (stripBy isSpace raw) = false
  split : shlexSplit (stripBy isSpace raw) = some words

theorem svLine_of_readAs (env : Env) (path : AbsPath) {raw : List Char} {words : List (List Char)}
    (h : ReadAs raw words) :
    svLine env path raw = wordItems env path path.parent (stripBy isSpace raw) words := by
  rw [svLine, h.notIgnored, h.split]
  rfl

/-- A line that starts with no sign is read as a source. -/
theorem wordItems_of_source (env : Env) (path base : AbsPath) {line first : List Char}
    (rest : List (List Char)) (hoption : isNestedOption first = false)
    (hadd : startsWith line "+" = false) (hminus : startsWith line "-" = false) :
    wordItems env path base line (first :: rest) = sourceItems env path base line first := by
  have hincdir : startsWith line "+incdir+" = false := Bool.eq_false_iff.mpr fun h => by
    simp [startsWith_of_append (a := "+") (b := "incdir+") h] at hadd
  have hdefine : startsWith line "+define+" = false := Bool.eq_false_iff.mpr fun h => by
    simp [startsWith_of_append (a := "+") (b := "define+") h] at hadd
  simp [wordItems, hoption, hincdir, hdefine, hadd, hminus]

/-- An item other than a failure comes from the words of the line. -/
theorem readAs_of_mem {env : Env} {path : AbsPath} {raw : List Char}
    {item : Item AbsPath SvEntry PrepareError} (h : item ∈ svLine env path raw)
    (hfail : ∀ e, item ≠ .fail e) :
    ∃ words, ReadAs raw words ∧
      item ∈ wordItems env path path.parent (stripBy isSpace raw) words := by
  unfold svLine at h
  dsimp only at h
  split at h
  · simp at h
  · rename_i hignored
    split at h
    · exact absurd (List.mem_singleton.mp h) (hfail _)
    · rename_i words hwords
      exact ⟨words, ⟨by simpa using hignored, hwords⟩, h⟩

theorem not_mem_incdirItems {env : Env} {base : AbsPath} {payload : List Char}
    {item : Item AbsPath SvEntry PrepareError} (hitem : ∀ p, item ≠ .emit (.incdir p)) :
    item ∉ incdirItems env base payload := by
  intro h
  rw [incdirItems, List.mem_filterMap] at h
  obtain ⟨inc, _, heq⟩ := h
  split at heq
  · cases heq
  · exact hitem _ (Option.some.inj heq).symm

theorem not_mem_defineItems {payload : List Char} {item : Item AbsPath SvEntry PrepareError}
    (hitem : ∀ text, item ≠ .emit (.define text)) : item ∉ defineItems payload := by
  intro h
  rw [defineItems, List.mem_filterMap] at h
  obtain ⟨define, _, heq⟩ := h
  split at heq
  · cases heq
  · exact hitem _ (Option.some.inj heq).symm

/-- The nested lists of a line. -/
theorem child_svLine_iff {env : Env} {path c : AbsPath} {raw : List Char} :
    .child c ∈ svLine env path raw ↔
      ∃ option value rest, ReadAs raw (option :: value :: rest) ∧ isNestedOption option = true ∧
        strip (String.ofList value) ≠ "" ∧
        c = resolveEntry env path.parent (stripQuotes (strip (String.ofList value))) := by
  constructor
  · intro h
    obtain ⟨words, hread, hmem⟩ := readAs_of_mem h (by simp)
    rw [wordItems] at hmem
    split at hmem
    · rename_i hoption
      rw [nestedItems] at hmem
      split at hmem
      · simp at hmem
      · rename_i href
        cases words with
        | nil => simp [isNestedOption] at hoption
        | cons option tail =>
          cases tail with
          | nil => exact absurd rfl href
          | cons value rest =>
            exact ⟨option, value, rest, hread, hoption, href, by simpa using hmem⟩
    split at hmem
    · exact absurd hmem (not_mem_incdirItems (by simp))
    split at hmem
    · exact absurd hmem (not_mem_defineItems (by simp))
    split at hmem
    · simp at hmem
    · rw [sourceItems] at hmem
      split at hmem
      · simp at hmem
      · dsimp only at hmem
        split at hmem <;> simp at hmem
  · rintro ⟨option, value, rest, hread, hoption, href, rfl⟩
    simp [svLine_of_readAs env path hread, wordItems, hoption, nestedItems, href]

/-- The sources of a line. -/
theorem rtl_svLine_iff {env : Env} {path p : AbsPath} {raw : List Char} :
    .emit (.rtl p) ∈ svLine env path raw ↔
      ∃ first rest, ReadAs raw (first :: rest) ∧ isNestedOption first = false ∧
        startsWith (stripBy isSpace raw) "+" = false ∧
        startsWith (stripBy isSpace raw) "-" = false ∧
        isSourceToken (stripQuotes (String.ofList first)) = true ∧
        env.fs.exists? p = true ∧
        p = resolveEntry env path.parent (stripQuotes (String.ofList first)) := by
  constructor
  · intro h
    obtain ⟨words, hread, hmem⟩ := readAs_of_mem h (by simp)
    rw [wordItems] at hmem
    split at hmem
    · rw [nestedItems] at hmem
      split at hmem <;> simp at hmem
    rename_i hoption
    split at hmem
    · exact absurd hmem (not_mem_incdirItems (by simp))
    split at hmem
    · exact absurd hmem (not_mem_defineItems (by simp))
    split at hmem
    · simp at hmem
    rename_i hsign
    rw [Bool.or_eq_true, not_or, Bool.not_eq_true, Bool.not_eq_true] at hsign
    rw [sourceItems] at hmem
    split at hmem
    · simp at hmem
    rename_i htoken
    dsimp only at hmem
    split at hmem
    · rename_i hexists
      cases words with
      | nil => exact absurd (by decide) htoken
      | cons first rest =>
        obtain rfl : p = _ := by simpa using hmem
        exact ⟨first, rest, hread, by simpa using hoption, hsign.1, hsign.2, by simpa using htoken,
          hexists, rfl⟩
    · simp at hmem
  · rintro ⟨first, rest, hread, hoption, hadd, hminus, htoken, hexists, rfl⟩
    rw [svLine_of_readAs env path hread, wordItems_of_source env path path.parent rest hoption hadd hminus,
      sourceItems]
    simp [htoken, hexists]

/-- The children of a line are canonical paths. -/
theorem realpath_child {env : Env} {path c : AbsPath} {raw : List Char}
    (h : .child c ∈ svLine env path raw) : env.fs.realpath c = c := by
  obtain ⟨_, _, _, _, _, _, rfl⟩ := child_svLine_iff.mp h
  exact realpath_resolveThirdpartyPath env _

theorem realpath_rtl {env : Env} {path p : AbsPath} {raw : List Char}
    (h : .emit (.rtl p) ∈ svLine env path raw) : env.fs.realpath p = p := by
  obtain ⟨_, _, _, _, _, _, _, _, rfl⟩ := rtl_svLine_iff.mp h
  exact realpath_resolveThirdpartyPath env _

theorem realpath_of_reaches {env : Env} {root x : AbsPath} (hroot : env.fs.realpath root = root)
    (h : Reaches (svItems env) root x) : env.fs.realpath x = x := by
  rcases Relation.ReflTransGen.cases_tail h with rfl | ⟨y, -, hyx⟩
  · exact hroot
  · obtain ⟨_, _, _, _, _, _, hchild⟩ := readBytes_of_includes hyx
    exact realpath_child hchild

end EccFe.Tools.Prepare
