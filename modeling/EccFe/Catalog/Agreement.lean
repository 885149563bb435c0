/-
EccFe.Catalog.Agreement — an accepted CPU filelist in the prepare step.

The catalog accepts a user's filelist with its own reader; the prepare step reads
it again with a stricter one. `AgreedWords` lists the forms of a line both read
alike: a nested list, one source, or words neither takes RTL from. Over a tree of
such lines the two readers open the same lists, and the files the prepare step
leaves out hold no Verilog and not the required top, so the second check of the
top sees the same module and the same ports (`accepted_prepared`).
-/
import EccFe.Catalog.UserFilelist
import EccFe.Tools.InputDigest
import EccFe.Tools.Prepare.Coverage
import EccFe.Tools.Prepare.CpuTop

namespace EccFe.Catalog

open Python Search Resources Tools
open RtlInputs (Workspace isFilelistOption attachedFilelist?)
open Prepare (SvEntry PrepareError svLine svItems ReadAs isIgnoredLine isNestedOption isSourceToken
  resolveEntry rtlFilesOf parseSvFilelist filelistLines requiredTop expectedCpuTopContract
  validateFrontendCpuTop)
open SvModule (Port definesModule moduleDefinitions portNames isSimpleSvIdentifier)

/-! ## 1. Lines both readers read alike -/

/-- A `.v` or `.sv` file. -/
def IsVerilog (p : AbsPath) : Prop := lower (PurePath.suffix ⟨true, p⟩) ∈ [".v", ".sv"]

/-- A file the prepare step may leave out. -/
def Dispensable (env : Env) (top : String) (p : AbsPath) : Prop :=
  ¬IsVerilog p ∧ definesModule env top p = false

/-- The catalog takes no nested list and no indispensable file from the word. -/
def PassiveWord (env : Env) (base : AbsPath) (top token : String) : Prop :=
  attachedFilelist? token = none ∧
    (isRtlPathToken token = true → Dispensable env top (resolveFilelistToken env base token))

def PassiveWords (env : Env) (base : AbsPath) (top : String) : List String → Prop
  | [] => True
  | [token] => PassiveWord env base top token
  | token :: value :: rest =>
      if isFilelistOption token then value = "" ∧ PassiveWords env base top rest
      else PassiveWord env base top token ∧ PassiveWords env base top (value :: rest)

/-- The prepare step takes no RTL from the line. -/
def PrepareSkips (line : List Char) (words : List (List Char)) : Prop :=
  if isNestedOption (words.head?.getD []) then
    strip (String.ofList (words.tail.head?.getD [])) = ""
  else
    startsWith line "+" = true ∨ startsWith line "-" = true ∨
      isSourceToken (stripQuotes (String.ofList (words.head?.getD []))) = false

inductive AgreedWords (env : Env) (base : AbsPath) (top : String) (line : List Char) :
    List (List Char) → Prop where
  /-- `-f list` with nothing of interest after it. -/
  | nested (option value : List Char) (rest : List (List Char)) :
      isNestedOption option = true → strip (String.ofList value) ≠ "" →
      resolveEntry env base (stripQuotes (strip (String.ofList value))) =
        resolveFilelistToken env base (String.ofList value) →
      PassiveWords env base top (rest.map String.ofList) →
        AgreedWords env base top line (option :: value :: rest)
  /-- One source with nothing of interest after it. -/
  | source (first : List Char) (rest : List (List Char)) :
      isNestedOption first = false → startsWith line "+" = false → startsWith line "-" = false →
      isSourceToken (stripQuotes (String.ofList first)) = true →
      isRtlPathToken (String.ofList first) = true →
      resolveEntry env base (stripQuotes (String.ofList first)) =
        resolveFilelistToken env base (String.ofList first) →
      PassiveWords env base top (rest.map String.ofList) →
        AgreedWords env base top line (first :: rest)
  /-- Nothing either reader is interested in. -/
  | passive (words : List (List Char)) :
      PrepareSkips line words → PassiveWords env base top (words.map String.ofList) →
        AgreedWords env base top line words

/-- The line is a comment, or shell words of an agreed form. -/
def AgreedLine (env : Env) (base : AbsPath) (top : String) (raw : List Char) : Prop :=
  isIgnoredLine (stripBy isSpace raw) = true ∨
    ∃ words, ReadAs raw words ∧ AgreedWords env base top (stripBy isSpace raw) words

/-- Every filelist the catalog opens is UTF-8 text with agreed lines. -/
structure TreeAgreed (env : Env) (root : AbsPath) (top : String) : Prop where
  utf8 : ∀ x, Reaches (userItems env) (env.fs.realpath root) x →
    ∀ bytes, env.fs.readBytes x = some bytes → ∃ text, decode bytes = some text
  lines : ∀ x, Reaches (userItems env) (env.fs.realpath root) x →
    ∀ raw ∈ filelistLines env x, AgreedLine env x.parent top raw

/-! ## 2. What the catalog takes from a line -/

section

variable {env : Env} {base : AbsPath} {top : String}

/-- A nested list is no file of its own. -/
theorem file_not_mem_nestedItems {nested : String} {p : AbsPath} :
    .emit (.file p) ∉ nestedItems env base nested := by
  rw [nestedItems]
  split
  · simp
  · dsimp only
    split <;> simp

theorem not_define_of_isRtlPathToken {token : String} (h : isRtlPathToken token = true) :
    ¬startsWith token.toList "+define+" = true := by
  intro hdefine
  have hplus := startsWith_of_append (a := "+") (b := "define+") hdefine
  simp [isRtlPathToken, hplus] at h

/-- A plain word names a file when it reads as RTL and exists. -/
theorem file_plainItems_iff {token : String} {p : AbsPath} :
    .emit (.file p) ∈ plainItems env base token ↔
      isRtlPathToken token = true ∧ env.fs.isFile p = true ∧
        p = resolveFilelistToken env base token := by
  rw [plainItems]
  split
  · rename_i hdefine
    refine iff_of_false (by simp [defineItems]) ?_
    exact fun h => not_define_of_isRtlPathToken h.1 hdefine
  split
  · rename_i hrtl
    rw [Bool.not_eq_true'] at hrtl
    simp [hrtl]
  · rename_i hrtl
    dsimp only
    split
    · rename_i hfile
      rw [List.mem_singleton, Item.emit.injEq, UserEntry.file.injEq]
      constructor
      · rintro rfl
        exact ⟨by simpa using hrtl, hfile, rfl⟩
      · exact fun h => h.2.2
    · rename_i hfile
      simp only [List.mem_singleton, Item.emit.injEq, reduceCtorEq, false_iff]
      rintro ⟨-, hp, rfl⟩
      exact hfile hp

theorem tokenItems_cons {token : String} (h : isFilelistOption token = false)
    (rest : List String) :
    tokenItems env base (token :: rest) = singleItems env base token ++ tokenItems env base rest := by
  cases rest with
  | nil => simp [tokenItems]
  | cons value rest => simp [tokenItems, h]

/-- A passive word opens no list. -/
theorem child_not_mem_of_passiveWord {token : String} (h : PassiveWord env base top token)
    (c : AbsPath) : .child c ∉ singleItems env base token := by
  rw [singleItems, h.1]
  exact child_not_mem_plainItems

/-- A passive word names no file that is needed. -/
theorem dispensable_of_passiveWord {token : String} (h : PassiveWord env base top token)
    {p : AbsPath} (hp : .emit (.file p) ∈ singleItems env base token) : Dispensable env top p := by
  rw [singleItems, h.1] at hp
  obtain ⟨hrtl, -, rfl⟩ := file_plainItems_iff.mp hp
  exact h.2 hrtl

theorem child_not_mem_of_passiveWords : ∀ tokens : List String, PassiveWords env base top tokens →
    ∀ c, .child c ∉ tokenItems env base tokens
  | [], _, c => by simp [tokenItems]
  | [token], h, c => child_not_mem_of_passiveWord h c
  | token :: value :: rest, h, c => by
      rw [PassiveWords] at h
      rw [tokenItems]
      split at h
      · rw [if_pos ‹_›, List.mem_append, not_or, h.1]
        exact ⟨by simp [nestedItems], child_not_mem_of_passiveWords rest h.2 c⟩
      · rw [if_neg ‹_›, List.mem_append, not_or]
        exact ⟨child_not_mem_of_passiveWord h.1 c, child_not_mem_of_passiveWords _ h.2 c⟩

theorem dispensable_of_passiveWords : ∀ tokens : List String, PassiveWords env base top tokens →
    ∀ p, .emit (.file p) ∈ tokenItems env base tokens → Dispensable env top p
  | [], _, p, hp => by simp [tokenItems] at hp
  | [token], h, p, hp => dispensable_of_passiveWord h hp
  | token :: value :: rest, h, p, hp => by
      rw [PassiveWords] at h
      rw [tokenItems] at hp
      split at h
      · rw [if_pos ‹_›, List.mem_append] at hp
        exact dispensable_of_passiveWords rest h.2 p (hp.resolve_left file_not_mem_nestedItems)
      · rw [if_neg ‹_›, List.mem_append] at hp
        rcases hp with hp | hp
        · exact dispensable_of_passiveWord h.1 hp
        · exact dispensable_of_passiveWords _ h.2 p hp

end

/-! ## 3. One agreed line in both readers -/

/-- The readers take the same from the line, up to dispensable files. -/
structure SameRtl (env : Env) (path : AbsPath) (top : String) (raw : List Char) : Prop where
  child : ∀ c, .child c ∈ svLine env path raw ↔ .child c ∈ userLine env path.parent raw
  noFail : ∀ e, .fail e ∉ svLine env path raw
  rtl : ∀ p, .emit (.rtl p) ∈ svLine env path raw → .emit (.file p) ∈ userLine env path.parent raw
  file : ∀ p, .emit (.file p) ∈ userLine env path.parent raw →
    .emit (.rtl p) ∈ svLine env path raw ∨ Dispensable env top p

section

variable {env : Env} {path : AbsPath} {top : String} {raw : List Char}

theorem userLine_of_ignored (env : Env) (base : AbsPath)
    (h : isIgnoredLine (stripBy isSpace raw) = true) :
    userLine env base raw = [] := by
  rw [userLine, filelistTokens, ← isIgnoredLine, if_pos h, tokenItems]

/-- A line is read by its words. -/
theorem userLine_of_readAs {words : List (List Char)} (h : ReadAs raw words) (base : AbsPath) :
    userLine env base raw = tokenItems env base (words.map String.ofList) := by
  rw [userLine, filelistTokens, ← isIgnoredLine, h.notIgnored, h.split, Option.getD_some]
  rfl

/-- The prepare step takes options at most from a line it skips. -/
theorem mem_svLine_of_skips {words : List (List Char)} (hread : ReadAs raw words)
    (hskips : PrepareSkips (stripBy isSpace raw) words) {item : Item AbsPath SvEntry PrepareError}
    (h : item ∈ svLine env path raw) :
    (∃ p, item = .emit (.incdir p)) ∨ ∃ text, item = .emit (.define text) := by
  rw [Prepare.svLine_of_readAs env path hread, Prepare.wordItems] at h
  rw [PrepareSkips] at hskips
  split at h
  · rename_i hoption
    rw [if_pos hoption] at hskips
    rw [Prepare.nestedItems, if_pos hskips] at h
    simp at h
  rename_i hoption
  rw [if_neg hoption] at hskips
  split at h
  · rw [Prepare.incdirItems, List.mem_filterMap] at h
    obtain ⟨inc, -, heq⟩ := h
    split at heq
    · cases heq
    · exact .inl ⟨_, (Option.some.inj heq).symm⟩
  split at h
  · rw [Prepare.defineItems, List.mem_filterMap] at h
    obtain ⟨define, -, heq⟩ := h
    split at heq
    · cases heq
    · exact .inr ⟨_, (Option.some.inj heq).symm⟩
  split at h
  · simp at h
  · rename_i hsign
    rw [Bool.or_eq_true, not_or] at hsign
    have hsource := (hskips.resolve_left hsign.1).resolve_left hsign.2
    rw [Prepare.sourceItems] at h
    simp [hsource] at h

/-- A line of passive words that the prepare step skips makes no difference. -/
theorem sameRtl_of_passive {words : List (List Char)} (hread : ReadAs raw words)
    (hskips : PrepareSkips (stripBy isSpace raw) words)
    (hpassive : PassiveWords env path.parent top (words.map String.ofList)) :
    SameRtl env path top raw where
  child c := by
    rw [userLine_of_readAs hread]
    refine iff_of_false (fun h => ?_) (child_not_mem_of_passiveWords _ hpassive c)
    rcases mem_svLine_of_skips hread hskips h with ⟨p, hp⟩ | ⟨text, htext⟩
    · cases hp
    · cases htext
  noFail e h := by
    rcases mem_svLine_of_skips hread hskips h with ⟨p, hp⟩ | ⟨text, htext⟩
    · cases hp
    · cases htext
  rtl p h := by
    rcases mem_svLine_of_skips hread hskips h with ⟨p, hp⟩ | ⟨text, htext⟩
    · cases hp
    · cases htext
  file p h := by
    rw [userLine_of_readAs hread] at h
    exact .inr (dispensable_of_passiveWords _ hpassive p h)

/-- A nested list that exists: both readers take its canonical path, and nothing else. -/
theorem sameRtl_of_nested {option value : List Char} {rest : List (List Char)}
    (hread : ReadAs raw (option :: value :: rest)) (hoption : isNestedOption option = true)
    (hvalue : strip (String.ofList value) ≠ "")
    (hresolve : resolveEntry env path.parent (stripQuotes (strip (String.ofList value))) =
      resolveFilelistToken env path.parent (String.ofList value))
    (hpassive : PassiveWords env path.parent top (rest.map String.ofList))
    (hmissing : ∀ p, .emit (.missing p) ∉ userLine env path.parent raw) :
    SameRtl env path top raw := by
  have hne : String.ofList value ≠ "" := by
    rintro h
    rw [h] at hvalue
    exact hvalue rfl
  have huser : userLine env path.parent raw =
      nestedItems env path.parent (String.ofList value) ++
        tokenItems env path.parent (rest.map String.ofList) := by
    rw [userLine_of_readAs hread]
    simp [tokenItems, Prepare.isFilelistOption_ofList, hoption]
  have hsv : svLine env path raw =
      [.child (resolveFilelistToken env path.parent (String.ofList value))] := by
    simp [Prepare.svLine_of_readAs env path hread, Prepare.wordItems, hoption,
      Prepare.nestedItems, hvalue, hresolve]
  have hfile : env.fs.isFile (resolveFilelistToken env path.parent (String.ofList value)) = true := by
    by_contra hnot
    refine hmissing (resolveFilelistToken env path.parent (String.ofList value)) ?_
    rw [huser, nestedItems, if_neg hne]
    dsimp only
    rw [if_neg hnot]
    exact List.mem_append_left _ (List.mem_singleton_self _)
  refine ⟨fun c => ?_, fun e => by simp [hsv], fun p => by simp [hsv], fun p hp => .inr ?_⟩
  · rw [hsv, huser, List.mem_append, child_nestedItems_iff]
    have hrest := child_not_mem_of_passiveWords _ hpassive c
    constructor
    · intro hc
      obtain rfl : c = _ := by simpa using hc
      exact .inl ⟨hne, hfile, rfl⟩
    · rintro (⟨-, -, rfl⟩ | hc)
      · exact List.mem_singleton_self _
      · exact absurd hc hrest
  · rw [huser, List.mem_append] at hp
    exact dispensable_of_passiveWords _ hpassive p (hp.resolve_left file_not_mem_nestedItems)

/-- An RTL path is no option. -/
theorem options_of_isRtlPathToken {token : String} (h : isRtlPathToken token = true) :
    isFilelistOption token = false ∧ attachedFilelist? token = none := by
  have hminus : ¬startsWith token.toList "-" = true := by
    intro hminus
    simp [isRtlPathToken, hminus] at h
  constructor
  · rw [isFilelistOption, Bool.or_eq_false_iff, beq_eq_false_iff_ne, beq_eq_false_iff_ne]
    constructor
    · rintro rfl
      exact hminus rfl
    · rintro rfl
      exact hminus rfl
  · rw [attachedFilelist?, if_neg]
    rw [Bool.and_eq_true, Bool.or_eq_true, not_and_or, not_or]
    exact .inl ⟨fun h => hminus (startsWith_of_append (a := "-") (b := "f") h),
      fun h => hminus (startsWith_of_append (a := "-") (b := "F") h)⟩

/-- A source that exists: both readers take it, and the catalog nothing else. -/
theorem sameRtl_of_source {first : List Char} {rest : List (List Char)}
    (hread : ReadAs raw (first :: rest)) (hoption : isNestedOption first = false)
    (hadd : startsWith (stripBy isSpace raw) "+" = false)
    (hminus : startsWith (stripBy isSpace raw) "-" = false)
    (hsource : isSourceToken (stripQuotes (String.ofList first)) = true)
    (hrtl : isRtlPathToken (String.ofList first) = true)
    (hresolve : resolveEntry env path.parent (stripQuotes (String.ofList first)) =
      resolveFilelistToken env path.parent (String.ofList first))
    (hpassive : PassiveWords env path.parent top (rest.map String.ofList))
    (hmissing : ∀ p, .emit (.missing p) ∉ userLine env path.parent raw) :
    SameRtl env path top raw := by
  have huser : userLine env path.parent raw =
      plainItems env path.parent (String.ofList first) ++
        tokenItems env path.parent (rest.map String.ofList) := by
    obtain ⟨hfilelist, hattached⟩ := options_of_isRtlPathToken hrtl
    rw [userLine_of_readAs hread, List.map_cons, tokenItems_cons hfilelist, singleItems, hattached]
  have hfile : env.fs.isFile (resolveFilelistToken env path.parent (String.ofList first)) = true := by
    by_contra hnot
    refine hmissing (resolveFilelistToken env path.parent (String.ofList first)) ?_
    rw [huser, plainItems, if_neg (not_define_of_isRtlPathToken hrtl), hrtl]
    simp [hnot]
  have hexists : env.fs.exists? (resolveFilelistToken env path.parent (String.ofList first)) = true := by
    obtain ⟨content, hread⟩ := FileSystem.isFile_iff.mp hfile
    exact FileSystem.exists_of_readBytes hread
  have hsv : svLine env path raw =
      [.emit (.rtl (resolveFilelistToken env path.parent (String.ofList first)))] := by
    rw [Prepare.svLine_of_readAs env path hread,
      Prepare.wordItems_of_source env path path.parent rest hoption hadd hminus, Prepare.sourceItems]
    simp [hsource, hresolve, hexists]
  refine ⟨fun c => ?_, fun e => by simp [hsv], fun p hp => ?_, fun p hp => ?_⟩
  · rw [hsv, huser, List.mem_append]
    refine iff_of_false (by simp) ?_
    rintro (hc | hc)
    · exact child_not_mem_plainItems hc
    · exact child_not_mem_of_passiveWords _ hpassive c hc
  · rw [hsv] at hp
    obtain rfl : p = _ := by simpa using hp
    rw [huser]
    exact List.mem_append_left _ (file_plainItems_iff.mpr ⟨hrtl, hfile, rfl⟩)
  · rw [huser, List.mem_append] at hp
    rcases hp with hp | hp
    · obtain ⟨-, -, rfl⟩ := file_plainItems_iff.mp hp
      exact .inl (hsv ▸ List.mem_singleton_self _)
    · exact .inr (dispensable_of_passiveWords _ hpassive p hp)

/-- A line that both readers read alike names the same files. -/
theorem sameRtl_of_agreed (hagreed : AgreedLine env path.parent top raw)
    (hmissing : ∀ p, .emit (.missing p) ∉ userLine env path.parent raw) :
    SameRtl env path top raw := by
  rcases hagreed with hignored | ⟨words, hread, hwords⟩
  · have huser := userLine_of_ignored env path.parent hignored
    have hsv : svLine env path raw = [] := by
      rw [svLine]
      exact if_pos hignored
    constructor <;> simp [huser, hsv]
  · cases hwords with
    | nested option value rest hoption hvalue hresolve hpassive =>
      exact sameRtl_of_nested hread hoption hvalue hresolve hpassive hmissing
    | source first rest hoption hadd hminus hsource hrtl hresolve hpassive =>
      exact sameRtl_of_source hread hoption hadd hminus hsource hrtl hresolve hpassive hmissing
    | passive words hskips hpassive =>
      exact sameRtl_of_passive hread hskips hpassive

end

/-! ## 4. A tree of agreed lines -/

section

variable {env : Env} {root : AbsPath} {top : String} {x : AbsPath}

/-- Nothing the catalog looked for is missing. -/
theorem missing_not_mem (hmissing : (parseUserCpuFilelist env root).missing = [])
    (hx : Reaches (userItems env) (env.fs.realpath root) x) (p : AbsPath) :
    .emit (.missing p) ∉ userItems env x := by
  obtain ⟨entries, opened, hrun, hparse⟩ := parseUserCpuFilelist_eq env root
  intro h
  have hmem : p ∈ (parseUserCpuFilelist env root).missing := by
    rw [hparse, mem_missing_iff]
    exact (mem_output_iff hrun _).mpr ⟨x, hx, h⟩
  rw [hmissing] at hmem
  simp at hmem

variable (htree : TreeAgreed env root top)
  (hmissing : (parseUserCpuFilelist env root).missing = [])

include htree hmissing

/-- Both readers go over the same lines of a list the catalog opens. -/
theorem items_of_reaches (hx : Reaches (userItems env) (env.fs.realpath root) x) :
    svItems env x = (filelistLines env x).flatMap (svLine env x) ∧
      userItems env x = (filelistLines env x).flatMap (userLine env x.parent) := by
  have hnot := missing_not_mem hmissing hx
  cases hread : env.fs.readBytes x with
  | none => exact absurd (by rw [userItems, hread]; exact List.mem_singleton_self _) (hnot x)
  | some bytes =>
    obtain ⟨text, htext⟩ := htree.utf8 x hx bytes hread
    have hlines := Prepare.mem_filelistLines hread htext
    constructor
    · simp [svItems, FileSystem.exists_of_readBytes hread, hread, htext, hlines]
    · rw [userItems, hread, filelistLines, hread, Option.getD_some]

theorem sameRtl_of_mem (hx : Reaches (userItems env) (env.fs.realpath root) x) {raw : List Char}
    (hraw : raw ∈ filelistLines env x) : SameRtl env x top raw := by
  refine sameRtl_of_agreed (htree.lines x hx raw hraw) fun p hp => ?_
  refine missing_not_mem hmissing hx p ?_
  rw [(items_of_reaches htree hmissing hx).2]
  exact List.mem_flatMap.mpr ⟨raw, hraw, hp⟩

/-- Both readers open the same lists. -/
theorem includes_iff (hx : Reaches (userItems env) (env.fs.realpath root) x) (c : AbsPath) :
    Includes (svItems env) x c ↔ Includes (userItems env) x c := by
  obtain ⟨hsv, huser⟩ := items_of_reaches htree hmissing hx
  rw [Includes, Includes, hsv, huser, List.mem_flatMap, List.mem_flatMap]
  constructor
  · rintro ⟨raw, hraw, h⟩
    exact ⟨raw, hraw, ((sameRtl_of_mem htree hmissing hx hraw).child c).mp h⟩
  · rintro ⟨raw, hraw, h⟩
    exact ⟨raw, hraw, ((sameRtl_of_mem htree hmissing hx hraw).child c).mpr h⟩

/-- The prepare step opens the lists the catalog opened. -/
theorem reaches_iff : Reaches (svItems env) (env.fs.realpath root) x ↔
    Reaches (userItems env) (env.fs.realpath root) x := by
  constructor
  · intro h
    induction h with
    | refl => exact .refl
    | tail _ hc ih => exact ih.tail ((includes_iff htree hmissing ih _).mp hc)
  · intro h
    induction h with
    | refl => exact .refl
    | tail hx hc ih => exact ih.tail ((includes_iff htree hmissing hx _).mpr hc)

/-- The second reader accepts what the first one accepted. -/
theorem parseSvFilelist_ok : ∃ entries opened, parseSvFilelist env root = .ok (entries, opened) := by
  have hleaf : ∀ x, Reaches (svItems env) (env.fs.realpath root) x →
      ∀ c, Includes (svItems env) x c → x ∈ env.fs.files := by
    intro x hx c hc
    obtain ⟨bytes, text, hread, -⟩ := Prepare.readBytes_of_includes hc
    rw [← Prepare.realpath_of_reaches (env.fs.realpath_idem root) hx]
    exact FileSystem.mem_files_of_readBytes hread
  have hno : ∀ x, Reaches (svItems env) (env.fs.realpath root) x → ∀ e, .fail e ∉ svItems env x := by
    intro x hx e h
    have hreach := (reaches_iff htree hmissing).mp hx
    rw [(items_of_reaches htree hmissing hreach).1] at h
    obtain ⟨raw, hraw, hfail⟩ := List.mem_flatMap.mp h
    exact (sameRtl_of_mem htree hmissing hreach hraw).noFail e hfail
  obtain ⟨⟨entries, opened⟩, hrun⟩ := (expandFrom_ok_iff hleaf).mpr hno
  exact ⟨entries, opened, hrun⟩

variable {entries : List SvEntry} {opened : List AbsPath}
  (hok : parseSvFilelist env root = .ok (entries, opened))

include hok

/-- What the second reader finds, the first one found. -/
theorem mem_files_of_mem_rtlFiles {p : AbsPath} (hp : p ∈ rtlFilesOf entries) :
    p ∈ (parseUserCpuFilelist env root).files := by
  obtain ⟨uentries, uopened, hrun, hparse⟩ := parseUserCpuFilelist_eq env root
  obtain ⟨x, hx, hemit⟩ := (mem_output_iff hok _).mp (Prepare.mem_rtlFilesOf.mp hp)
  have hreach := (reaches_iff htree hmissing).mp hx
  obtain ⟨hsv, huser⟩ := items_of_reaches htree hmissing hreach
  rw [hsv] at hemit
  obtain ⟨raw, hraw, hline⟩ := List.mem_flatMap.mp hemit
  rw [hparse, mem_files_iff]
  refine (mem_output_iff hrun _).mpr ⟨x, hreach, ?_⟩
  rw [huser]
  exact List.mem_flatMap.mpr ⟨raw, hraw, (sameRtl_of_mem htree hmissing hreach hraw).rtl p hline⟩

/-- What the first reader finds, the second one finds or does not need. -/
theorem mem_rtlFiles_or_dispensable {p : AbsPath}
    (hp : p ∈ (parseUserCpuFilelist env root).files) :
    p ∈ rtlFilesOf entries ∨ Dispensable env top p := by
  obtain ⟨uentries, uopened, hrun, hparse⟩ := parseUserCpuFilelist_eq env root
  rw [hparse, mem_files_iff] at hp
  obtain ⟨x, hx, hemit⟩ := (mem_output_iff hrun _).mp hp
  obtain ⟨hsv, huser⟩ := items_of_reaches htree hmissing hx
  rw [huser] at hemit
  obtain ⟨raw, hraw, hline⟩ := List.mem_flatMap.mp hemit
  refine ((sameRtl_of_mem htree hmissing hx hraw).file p hline).imp_left fun h => ?_
  refine Prepare.mem_rtlFilesOf.mpr ((mem_output_iff hok _).mpr ⟨x, ?_, ?_⟩)
  · exact (reaches_iff htree hmissing).mpr hx
  · rw [hsv]
    exact List.mem_flatMap.mpr ⟨raw, hraw, h⟩

end

/-! ## 5. The second check of the top -/

/-- The port list and the port contract of the core name the same ports, unless it
declares no contract. -/
def ContractCovered (core : CatalogEntry) : Prop :=
  ∃ ports, requiredUserCpuTopPortContract core = .ok ports ∧
    (ports = [] ∨ requiredUserCpuTopPorts core ≠ [] ∧
      ∀ name, name ∈ portNames ports ↔ name ∈ requiredUserCpuTopPorts core)

/-- The catalog accepts the filelist for the required top. -/
structure Accepted (env : Env) (core : CatalogEntry) (root : AbsPath) (top : String) : Prop where
  missing : (parseUserCpuFilelist env root).missing = []
  issues : validateUserCpuFilelistContract env core root top = .ok []

/-- The prepare step reads the filelist, keeps its Verilog files and finds the top. -/
def PreparedWhole (env : Env) (workspace : Workspace) (root : AbsPath) : Prop :=
  ∃ entries opened, parseSvFilelist env root = .ok (entries, opened) ∧
    (∀ p, IsVerilog p → (p ∈ (parseUserCpuFilelist env root).files ↔ p ∈ rtlFilesOf entries)) ∧
    ∃ report, validateFrontendCpuTop env workspace (Prepare.uniqueRtl (rtlFilesOf entries)) =
      .ok report

theorem eq_singleton_of_nodup {l : List AbsPath} {q : AbsPath} (hnodup : l.Nodup)
    (h : ∀ p, p ∈ l ↔ p = q) : l = [q] := by
  refine List.perm_singleton.mp ((List.perm_ext_iff_of_nodup hnodup (List.nodup_singleton q)).mpr ?_)
  intro p
  rw [h p, List.mem_singleton]

section

variable {env : Env} {core : CatalogEntry} {root : AbsPath} {top : String}

/-- What an accepting validation has established. -/
theorem top_of_accepted (h : Accepted env core root top) (hne : top ≠ "") :
    ∃ q, moduleDefinitions env (parseUserCpuFilelist env root).files top = [q] ∧
      portIssues core top
        (SvModule.modulePortContract env ((SvModule.readText? env q).getD []) top) = .ok [] := by
  have hissues := h.issues
  rw [validateUserCpuFilelistContract, if_neg hne] at hissues
  dsimp only at hissues
  split at hissues
  · simp at hissues
  · rename_i hcount
    obtain ⟨q, hq⟩ := List.length_eq_one_iff.mp (not_not.mp hcount)
    refine ⟨q, hq, ?_⟩
    rw [SvModule.modulePortContractFromFiles, hq] at hissues
    dsimp only at hissues
    cases hports : portIssues core top
        (SvModule.modulePortContract env ((SvModule.readText? env q).getD []) top) with
    | error e => simp [hports, Except.map] at hissues
    | ok more =>
      simp only [hports, Except.map, Except.ok.injEq, List.append_eq_nil_iff] at hissues
      rw [hissues.2]

theorem mem_portNames_iff {ports : List Port} {name : String} :
    name ∈ portNames ports ↔ name ≠ "" ∧ name ∈ ports.map (·.name) := by
  rw [portNames, RtlInputs.distinctTexts, RtlInputs.mem_foldl_distinct, List.mem_filter]
  simp [and_comm]

theorem required_ne_empty {name : String} (h : name ∈ requiredUserCpuTopPorts core) : name ≠ "" := by
  rw [requiredUserCpuTopPorts] at h
  split at h
  · simp at h
  · simpa using (List.mem_filter.mp h).2

/-- Ports the catalog has no issue with differ from the contract in nothing. -/
theorem comparePortContracts_of_portIssues {expected found : List Port}
    (hissues : portIssues core top found = .ok [])
    (hexpected : requiredUserCpuTopPortContract core = .ok expected)
    (hrequired : requiredUserCpuTopPorts core ≠ [])
    (hnames : ∀ name, name ∈ portNames expected ↔ name ∈ requiredUserCpuTopPorts core) :
    (SvModule.comparePortContracts expected found).any = false := by
  rw [portIssues, if_neg hrequired] at hissues
  dsimp only at hissues
  split at hissues
  · simp at hissues
  rename_i hsame
  rw [not_or, not_not, not_not, List.filter_eq_nil_iff, List.filter_eq_nil_iff] at hsame
  obtain ⟨hmissing, hextra⟩ := hsame
  rw [hexpected] at hissues
  have hmismatches : portMismatchTexts (requiredUserCpuTopPorts core) expected found = [] := by
    by_contra hne
    simp [Except.map, hne] at hissues
  have hfound : ∀ name, name ∈ portNames found ↔ name ∈ requiredUserCpuTopPorts core := by
    intro name
    rw [mem_portNames_iff]
    constructor
    · exact fun h => by simpa using hextra name h.2
    · exact fun h => ⟨required_ne_empty h, by simpa using hmissing name h⟩
  have hnone : ∀ name ∈ portNames expected, SvModule.portMismatch? expected found name = none := by
    intro name hname
    have htext := List.filterMap_eq_nil_iff.mp hmismatches name ((hnames name).mp hname)
    rw [SvModule.portMismatch?]
    cases he : SvModule.portByName expected name with
    | none => rfl
    | some e =>
      cases ha : SvModule.portByName found name with
      | none => rfl
      | some a =>
        simp only [he, ha] at htext ⊢
        split at htext
        · simp at htext
        · rw [if_neg ‹_›]
  rw [SvModule.PortDifferences.any]
  have h₁ : (SvModule.comparePortContracts expected found).missing = [] := by
    rw [SvModule.comparePortContracts, List.filter_eq_nil_iff]
    intro name hname
    simpa using (hfound name).mpr ((hnames name).mp hname)
  have h₂ : (SvModule.comparePortContracts expected found).extra = [] := by
    rw [SvModule.comparePortContracts, List.filter_eq_nil_iff]
    intro name hname
    simpa using (hnames name).mpr ((hfound name).mp hname)
  have h₃ : (SvModule.comparePortContracts expected found).mismatches = [] := by
    rw [SvModule.comparePortContracts]
    dsimp only
    rw [List.filterMap_eq_nil_iff.mpr fun name hname => hnone name (List.mem_filter.mp hname).1,
      List.mergeSort_nil]
  simp [h₁, h₂, h₃]

/-- The prepare step's check, where one file defines the top. -/
theorem validate_ok {workspace : Workspace} {files : List AbsPath} {q : AbsPath}
    (htop : strip (Dict.textAt workspace "required_cpu_top_module") = top) (hne : top ≠ "")
    (hident : isSimpleSvIdentifier top = true)
    (hcontract : expectedCpuTopContract workspace = requiredUserCpuTopPortContract core)
    (hcovered : ContractCovered core) (hmatching : moduleDefinitions env files top = [q])
    (hdefines : definesModule env top q = true)
    (hissues : portIssues core top
      (SvModule.modulePortContract env ((SvModule.readText? env q).getD []) top) = .ok []) :
    ∃ report, validateFrontendCpuTop env workspace files = .ok report := by
  obtain ⟨expected, hexpected, hports⟩ := hcovered
  have hrequires : Prepare.requiresFrontendCpuTop workspace = true := by
    simp [Prepare.requiresFrontendCpuTop, htop, hne]
  have hrequired : requiredTop workspace = top := by
    simp [requiredTop, htop, hne]
  have hagain : moduleDefinitions env [q] top = [q] := by
    simp [moduleDefinitions, hdefines]
  rw [validateFrontendCpuTop, hrequires, hrequired, hcontract, hexpected]
  simp only [Bool.not_true, Bool.false_eq_true, if_false, hident, hmatching, List.length_singleton,
    ne_eq, not_true_eq_false, Prepare.checkCpuTopPorts, SvModule.modulePortContractFromFiles, hagain]
  rcases hports with hnil | ⟨hsome, hnames⟩
  · simp [hnil]
  · have hsame := comparePortContracts_of_portIssues hissues hexpected hsome hnames
    split
    · exact ⟨_, rfl⟩
    · rw [hsame]
      exact ⟨_, rfl⟩

/-- An accepted tree of agreed lines is prepared whole, and the check of the top passes again. -/
theorem accepted_prepared {workspace : Workspace} (haccepted : Accepted env core root top)
    (hcontract : expectedCpuTopContract workspace = requiredUserCpuTopPortContract core)
    (htop : strip (Dict.textAt workspace "required_cpu_top_module") = top)
    (htree : TreeAgreed env root top) (hident : isSimpleSvIdentifier top = true)
    (hcovered : ContractCovered core) :
    PreparedWhole env workspace root := by
  obtain ⟨entries, opened, hok⟩ := parseSvFilelist_ok htree haccepted.missing
  have hrtl : ∀ p ∈ rtlFilesOf entries, p ∈ (parseUserCpuFilelist env root).files :=
    fun p hp => mem_files_of_mem_rtlFiles htree haccepted.missing hok hp
  have hfiles : ∀ p ∈ (parseUserCpuFilelist env root).files,
      p ∈ rtlFilesOf entries ∨ Dispensable env top p :=
    fun p hp => mem_rtlFiles_or_dispensable htree haccepted.missing hok hp
  refine ⟨entries, opened, hok, fun p hp => ⟨fun h => ?_, hrtl p⟩, ?_⟩
  · exact (hfiles p h).resolve_right fun hd => hd.1 hp
  have hne : top ≠ "" := by
    rintro rfl
    exact absurd hident (by decide)
  obtain ⟨q, hq, hissues⟩ := top_of_accepted haccepted hne
  have hmatching : moduleDefinitions env (Prepare.uniqueRtl (rtlFilesOf entries)) top = [q] := by
    refine eq_singleton_of_nodup
      ((RtlInputs.nodup_foldl_distinct _ [] List.nodup_nil).filter _) fun p => ?_
    have hall : p ∈ moduleDefinitions env (parseUserCpuFilelist env root).files top ↔ p = q := by
      rw [hq, List.mem_singleton]
    rw [moduleDefinitions, List.mem_filter] at hall
    rw [moduleDefinitions, List.mem_filter, Prepare.uniqueRtl, RtlInputs.mem_foldl_distinct]
    constructor
    · rintro ⟨hp, hdefines⟩
      exact hall.mp ⟨hrtl p (by simpa using hp), hdefines⟩
    · intro hp
      obtain ⟨hmem, hdefines⟩ := hall.mpr hp
      refine ⟨.inr ((hfiles p hmem).resolve_right fun hd => ?_), hdefines⟩
      exact absurd hdefines (by rw [hd.2]; decide)
  have hdefines : definesModule env top q = true :=
    (List.mem_filter.mp (hq ▸ List.mem_singleton_self q)).2
  exact validate_ok htop hne hident hcontract hcovered hmatching hdefines hissues

end

/-! ## 6. One source on a line, and two -/

/-- A core that asks for a filelist and declares no ports. -/
def openCore : CatalogEntry := ⟨"custom-filelist", [("requires_filelist", .bool true)]⟩

def cpuWorkspace : Workspace := [("required_cpu_top_module", .str "cpu")]

/-- A filelist, the CPU and a helper next to it. -/
def cpuEnv (filelist : String) : Env :=
  .ofNodes [(["p", "cpu.f"], .file (asciiBytes filelist) 0),
    (["p", "b.v"], .file [] 0), (["p", "cpu.v"], .file (asciiBytes "module cpu;") 0)]

theorem cpuEnv_accepted : Accepted (cpuEnv "cpu.v") openCore ["p", "cpu.f"] "cpu" where
  missing := by decide
  issues := by rfl

theorem cpuEnv_agreed : TreeAgreed (cpuEnv "cpu.v") ["p", "cpu.f"] "cpu" := by
  have hrun : expandFrom (userItems (cpuEnv "cpu.v")) (cpuEnv "cpu.v").fs.files ["p", "cpu.f"] =
      .ok ([.file ["p", "cpu.v"]], [["p", "cpu.f"]]) := rfl
  have hroot : ∀ x, Reaches (userItems (cpuEnv "cpu.v")) ["p", "cpu.f"] x → x = ["p", "cpu.f"] :=
    fun x hx => by simpa using (mem_opened_iff hrun x).mpr hx
  constructor
  · intro x hx bytes hread
    obtain rfl := hroot x hx
    obtain rfl : asciiBytes "cpu.v" = bytes := Option.some.inj hread
    exact ⟨"cpu.v".toList, by decide⟩
  · intro x hx raw hraw
    obtain rfl := hroot x hx
    have hlines : filelistLines (cpuEnv "cpu.v") ["p", "cpu.f"] = ["cpu.v".toList] := by decide
    obtain rfl : raw = "cpu.v".toList := by simpa [hlines] using hraw
    exact .inr ⟨["cpu.v".toList], ⟨by decide, by decide⟩, .source _ _ (by decide) (by decide)
      (by decide) (by decide) (by decide) (by decide) trivial⟩

theorem accepted_prepared_plain : PreparedWhole (cpuEnv "cpu.v") cpuWorkspace ["p", "cpu.f"] :=
  accepted_prepared cpuEnv_accepted rfl (by decide) cpuEnv_agreed (by decide)
    ⟨[], rfl, .inl rfl⟩

/-- Two sources on one line: the catalog accepts both, the prepare step keeps the first
and misses the top. -/
theorem twoSources_not_prepared : Accepted (cpuEnv "b.v cpu.v") openCore ["p", "cpu.f"] "cpu" ∧
    ¬PreparedWhole (cpuEnv "b.v cpu.v") cpuWorkspace ["p", "cpu.f"] := by
  refine ⟨⟨by decide, rfl⟩, ?_⟩
  rintro ⟨entries, opened, hok, hfiles, -⟩
  have hrun : parseSvFilelist (cpuEnv "b.v cpu.v") ["p", "cpu.f"] =
      .ok ([.rtl ["p", "b.v"]], [["p", "cpu.f"]]) := rfl
  rw [hrun] at hok
  cases hok
  have hmem := (hfiles ["p", "cpu.v"] (by unfold IsVerilog; decide)).mp (by decide)
  revert hmem
  decide

end EccFe.Catalog
