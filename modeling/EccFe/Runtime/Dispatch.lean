/-
EccFe.Runtime.Dispatch — what leaves `dispatch`.

Three kinds of exception do: the decoding stands before the `try` that handles it, the
parser raises more than `JSONDecodeError`, and a reply may not be writable. A lone
surrogate in a reply passes `json.dumps` and is refused by the frame's encoder.
`dispatches_iff` says that these are all.
-/
import EccFe.Runtime.Server

namespace EccFe.Runtime.Server

open Python Transport

section

variable {σ : Type} (api : RuntimeApi σ) (interp : Interpreter)

/-! ## 1. Sending -/

/-- A frame fails only for the number of digits of its length. -/
theorem encodeContentLengthFrame_isSome (bytes : Bytes) :
    (encodeContentLengthFrame bytes).isSome = true ↔
      (natText bytes.length).length ≤ maxStrDigits := by
  rw [encodeContentLengthFrame, Option.isSome_map, decimalBytes]
  split
  · rename_i hlong
    exact ⟨fun h => (by cases h), fun h => absurd h (Nat.not_le.mpr hlong)⟩
  · rename_i hshort
    exact ⟨fun _ => Nat.le_of_not_lt hshort, fun _ => rfl⟩

variable {interp}

/-- A value that can be sent is written. -/
theorem Sendable.dumps {v : JsonValue} (h : Sendable interp v) :
    dumpsText interp v = some v.text := if_pos ⟨h.depth, h.digits⟩

/-- What is written of it is framed. -/
theorem Sendable.framed {v : JsonValue} (h : Sendable interp v) :
    ∃ bytes, encodeUtf8 v.text = some bytes ∧ (encodeContentLengthFrame bytes).isSome = true := by
  have hsome : (encodeUtf8 v.text).isSome = true := by
    rw [encodeUtf8_isSome, any_isSurrogate_text, Bool.not_eq_true']
    exact h.noSurrogate
  obtain ⟨bytes, hbytes⟩ := Option.isSome_iff_exists.mp hsome
  exact ⟨bytes, hbytes, (encodeContentLengthFrame_isSome bytes).mpr (h.length bytes hbytes)⟩

theorem Sendable.fits {v : JsonValue} (h : Sendable interp v) : Fits interp 0 v :=
  ⟨by simpa using h.depth, h.digits, h.noSurrogate⟩

theorem Fits.sendable {v : JsonValue} (h : Fits interp 0 v) (hlength : ∀ bytes,
    encodeUtf8 v.text = some bytes → (natText bytes.length).length ≤ maxStrDigits) :
    Sendable interp v :=
  ⟨by simpa using h.depth, h.digits, h.noSurrogate, hlength⟩

/-- What is written and framed can be sent. -/
theorem sendable_of_framed {v : JsonValue} {text : PyStr} (hdumps : dumpsText interp v = some text)
    (hframed : ∃ bytes, encodeUtf8 text = some bytes ∧
      (encodeContentLengthFrame bytes).isSome = true) : Sendable interp v := by
  rw [dumpsText] at hdumps
  split at hdumps
  · rename_i hwrites
    obtain rfl := Option.some.inj hdumps
    obtain ⟨bytes, hbytes, hframe⟩ := hframed
    refine ⟨hwrites.1, hwrites.2, ?_, fun bytes' hbytes' => ?_⟩
    · have hsome := encodeUtf8_isSome v.text
      rw [hbytes, any_isSurrogate_text] at hsome
      simpa [JsonValue.hasSurrogate] using hsome.symm
    · rw [hbytes, Option.some.injEq] at hbytes'
      exact (encodeContentLengthFrame_isSome bytes').mp (hbytes' ▸ hframe)
  · cases hdumps

theorem encodeJson_eq_ok {v : JsonValue} {text : PyStr} :
    encodeJson interp v = .ok text ↔ dumpsText interp v = some text := by
  rw [encodeJson]
  split
  · rename_i hdumps
    rw [hdumps]
    exact ⟨fun h => by rw [Except.ok.inj h], fun h => by rw [Option.some.inj h]⟩
  · rename_i hdumps
    rw [hdumps]
    exact ⟨fun h => (by cases h), fun h => (by cases h)⟩

/-- A reply is not the empty text. -/
theorem text_replyObject_ne_nil (id : JsonValue) (body : PyStr × JsonValue) :
    (replyObject id body).text ≠ [] := by
  rw [replyObject, JsonValue.text]
  exact List.append_ne_nil_of_left_ne_nil (List.append_ne_nil_of_left_ne_nil (by decide) _) _

theorem framed_nil : ∃ bytes, encodeUtf8 [] = some bytes ∧
    (encodeContentLengthFrame bytes).isSome = true :=
  ⟨[], rfl, (encodeContentLengthFrame_isSome []).mpr (by decide)⟩

/-! ## 2. The parts of a reply -/

/-- A value fits by its depth and its leaves. -/
theorem fits_iff {n : Nat} {v : JsonValue} : Fits interp n v ↔ n + v.depth ≤ interp.dumpsDepth ∧
    ∀ leaf ∈ v.leaves, leaf.printable = true ∧ leaf.leafSurrogate = false := by
  constructor
  · rintro ⟨hdepth, hdigits, hsurrogate⟩
    rw [JsonValue.hasSurrogate, List.any_eq_false] at hsurrogate
    refine ⟨hdepth, fun leaf hleaf => ⟨List.all_eq_true.mp hdigits leaf hleaf, ?_⟩⟩
    exact Bool.eq_false_iff.mpr (hsurrogate leaf hleaf)
  · rintro ⟨hdepth, hleaves⟩
    refine ⟨hdepth, List.all_eq_true.mpr fun leaf hleaf => (hleaves leaf hleaf).1, ?_⟩
    exact List.any_eq_false.mpr fun leaf hleaf => Bool.eq_false_iff.mp (hleaves leaf hleaf).2

theorem fits_null {n : Nat} : Fits interp n .null ↔ n ≤ interp.dumpsDepth := by
  rw [fits_iff, JsonValue.leaves, List.forall_mem_singleton, JsonValue.depth]
  exact and_iff_left ⟨rfl, rfl⟩

theorem fits_str {n : Nat} {s : PyStr} :
    Fits interp n (.str s) ↔ n ≤ interp.dumpsDepth ∧ s.any isSurrogate = false := by
  rw [fits_iff, JsonValue.leaves, List.forall_mem_singleton, JsonValue.depth]
  exact and_congr_right fun _ => and_iff_right rfl

@[simp] theorem fits_pyStr {n : Nat} {s : String} :
    Fits interp n (.str (pyStr s)) ↔ n ≤ interp.dumpsDepth := by
  rw [fits_str, any_isSurrogate_pyStr]
  exact and_iff_left rfl

/-- Literals before a text change nothing. -/
theorem fits_append {n : Nat} {s : String} {text : PyStr} :
    Fits interp n (.str (pyStr s ++ text)) ↔ Fits interp n (.str text) := by
  rw [fits_str, fits_str, List.any_append, any_isSurrogate_pyStr, Bool.false_or]

theorem fits_int {n : Nat} {k : Int} (hk : (JsonValue.int k).printable = true) :
    Fits interp n (.int k) ↔ n ≤ interp.dumpsDepth := by
  rw [fits_iff, JsonValue.leaves, List.forall_mem_singleton, JsonValue.depth]
  exact and_iff_left ⟨hk, rfl⟩

/-- A dict fits when its keys and values do, one container deeper. -/
theorem fits_obj {n : Nat} {fields : Fields} : Fits interp n (.obj fields) ↔
    n + 1 ≤ interp.dumpsDepth ∧
      ∀ kv ∈ fields, Fits interp (n + 1) (.str kv.1) ∧ Fits interp (n + 1) kv.2 := by
  have hdepth : n + (JsonValue.obj fields).depth = n + 1 + fieldsDepth fields := by
    rw [JsonValue.depth]
    omega
  rw [fits_iff, hdepth, fieldsDepth_le, JsonValue.leaves, and_assoc]
  refine and_congr_right fun hn => ?_
  constructor
  · rintro ⟨hfields, hleaves⟩ kv hkv
    have hkey := hleaves (.str kv.1) (mem_fieldsLeaves.mpr ⟨kv, hkv, .inl rfl⟩)
    exact ⟨fits_str.mpr ⟨hn, hkey.2⟩, fits_iff.mpr ⟨hfields kv hkv, fun leaf hleaf =>
      hleaves leaf (mem_fieldsLeaves.mpr ⟨kv, hkv, .inr hleaf⟩)⟩⟩
  · intro h
    refine ⟨fun kv hkv => (h kv hkv).2.depth, fun leaf hleaf => ?_⟩
    obtain ⟨kv, hkv, rfl | hmem⟩ := mem_fieldsLeaves.mp hleaf
    · exact ⟨rfl, (fits_str.mp (h kv hkv).1).2⟩
    · exact (fits_iff.mp (h kv hkv).2).2 leaf hmem

/-- A list fits when its items do, one container deeper. -/
theorem fits_arr {n : Nat} {items : List JsonValue} : Fits interp n (.arr items) ↔
    n + 1 ≤ interp.dumpsDepth ∧ ∀ v ∈ items, Fits interp (n + 1) v := by
  have hdepth : n + (JsonValue.arr items).depth = n + 1 + itemsDepth items := by
    rw [JsonValue.depth]
    omega
  rw [fits_iff, hdepth, itemsDepth_le, JsonValue.leaves, and_assoc]
  refine and_congr_right fun hn => ?_
  constructor
  · rintro ⟨hitems, hleaves⟩ v hv
    exact fits_iff.mpr ⟨hitems v hv, fun leaf hleaf =>
      hleaves leaf (mem_itemsLeaves.mpr ⟨v, hv, hleaf⟩)⟩
  · intro h
    refine ⟨fun v hv => (h v hv).depth, fun leaf hleaf => ?_⟩
    obtain ⟨v, hv, hmem⟩ := mem_itemsLeaves.mp hleaf
    exact (fits_iff.mp (h v hv)).2 leaf hmem

theorem errorFits_nil : ErrorFits interp [] ↔ 3 ≤ interp.dumpsDepth :=
  and_iff_left fun _ hmem => absurd hmem List.not_mem_nil

/-- A reply fits when its id and its body do. -/
theorem fits_replyObject {id content : JsonValue} {name : String} :
    Fits interp 0 (replyObject id (pyStr name, content)) ↔
      Fits interp 1 id ∧ Fits interp 1 content := by
  rw [replyObject, fits_obj, List.forall_mem_cons, List.forall_mem_cons, List.forall_mem_singleton,
    textValue]
  simp only [fits_pyStr, zero_add]
  constructor
  · rintro ⟨-, -, ⟨-, hid⟩, -, hcontent⟩
    exact ⟨hid, hcontent⟩
  · rintro ⟨hid, hcontent⟩
    have hone : 1 ≤ interp.dumpsDepth := (Nat.le_add_right _ _).trans hid.depth
    exact ⟨hone, ⟨hone, hone⟩, ⟨hone, hid⟩, hone, hcontent⟩

/-- An error fits when its message and its data do. -/
theorem fits_errorObject {fault : JsonRpcFault} (hcode : (JsonValue.int fault.code).printable = true)
    (hdata : fault.data ≠ []) : Fits interp 1 (errorObject fault) ↔
      ErrorFits interp (.str fault.message :: fault.data.flatMap fun kv => [.str kv.1, kv.2]) := by
  rw [errorObject, if_neg hdata, fits_obj, List.cons_append, List.cons_append, List.nil_append,
    List.forall_mem_cons, List.forall_mem_cons, List.forall_mem_singleton, fits_obj, fits_int hcode,
    ErrorFits, List.forall_mem_cons]
  simp only [fits_pyStr, List.forall_mem_flatMap, List.forall_mem_cons, List.not_mem_nil,
    IsEmpty.forall_iff, implies_true, and_true]
  constructor
  · rintro ⟨-, -, ⟨-, hmessage⟩, -, hthree, hfields⟩
    exact ⟨hthree, fits_str.mpr ⟨hthree, (fits_str.mp hmessage).2⟩, hfields⟩
  · rintro ⟨hthree, hmessage, hfields⟩
    have htwo : 1 + 1 ≤ interp.dumpsDepth := by omega
    exact ⟨htwo, ⟨htwo, htwo⟩, ⟨htwo, fits_str.mpr ⟨htwo, (fits_str.mp hmessage).2⟩⟩, htwo, hthree,
      hfields⟩

/-- A fault with one message quotes what follows the literal part of it. -/
theorem fits_faultOf {code : Int} (hcode : (JsonValue.int code).printable = true)
    {message lead : String} {text : PyStr} :
    Fits interp 1 (errorObject (faultOf code message (pyStr lead ++ text))) ↔
      ErrorFits interp [.str text] := by
  rw [fits_errorObject hcode (List.cons_ne_nil _ _), ErrorFits, ErrorFits]
  refine and_congr_right fun hthree => ?_
  simp [faultOf, hthree, fits_append]

/-- A fault with a literal message quotes nothing. -/
theorem fits_literalFault {code : Int} (hcode : (JsonValue.int code).printable = true)
    {message text : String} :
    Fits interp 1 (errorObject (faultOf code message (pyStr text))) ↔ ErrorFits interp [] := by
  rw [fits_errorObject hcode (List.cons_ne_nil _ _), ErrorFits, ErrorFits]
  refine and_congr_right fun hthree => ?_
  simp [faultOf, hthree]

theorem fits_okResult : Fits interp 1 okResult ↔ 2 ≤ interp.dumpsDepth := by
  rw [okResult, fits_obj, List.forall_mem_singleton, fits_pyStr, fits_iff]
  simp [JsonValue.depth, JsonValue.leaves, JsonValue.printable, JsonValue.leafSurrogate]

/-- The answer can be written as a result or an error. -/
def Answered (interp : Interpreter) : Except JsonRpcFault JsonValue → Prop
  | .ok result => Fits interp 1 result
  | .error fault => Fits interp 1 (errorObject fault)

theorem Fields.set_ne_nil (fields : Fields) (key : PyStr) (value : JsonValue) :
    fields.set key value ≠ [] := by
  cases fields with
  | nil => exact List.cons_ne_nil _ _
  | cons kv rest =>
    rw [Fields.set]
    split <;> exact List.cons_ne_nil _ _

/-- The data of an API error has at least its message. -/
theorem errorData_ne_nil (message : PyStr) (data : Fields) : errorData message data ≠ [] := by
  rw [errorData]
  have hstart : ([(pyStr "message", .str message)] : Fields) ≠ [] := List.cons_ne_nil _ _
  revert hstart
  generalize ([(pyStr "message", .str message)] : Fields) = fields
  induction data generalizing fields with
  | nil => exact id
  | cons kv rest ih => exact fun _ => ih _ (Fields.set_ne_nil _ _ _)

/-! ## 3. Answering -/

variable {api}

/-- A request that is not valid is answered with the code for it. -/
theorem dispatchRequest_of_not_valid {request : Fields} (server : RuntimeServer σ)
    (hvalid : ¬PassesValidation request) :
    ∃ fault, (dispatchRequest api request server).1 = .error fault ∧ fault.code = -32600 := by
  rw [dispatchRequest]
  split
  · exact ⟨_, rfl, rfl⟩
  · rename_i hversion
    split
    · exact ⟨_, rfl, rfl⟩
    · rename_i method hmethod
      refine absurd ⟨?_, ?_⟩ hvalid
      · simpa using hversion
      · rw [hmethod]
        rfl

theorem answer_code {outcome : HandlerOutcome} {fault : JsonRpcFault}
    (h : outcome.answer = .error fault) : fault.code ≠ -32700 ∧ fault.code ≠ -32600 := by
  cases outcome with
  | returned result => cases h
  | runtimeApiError code message data =>
    rw [← Except.error.inj h]
    dsimp only
    rw [errorCode]
    split_ifs <;> decide
  | exception text =>
    rw [← Except.error.inj h]
    exact ⟨by simp [faultOf], by simp [faultOf]⟩

/-- The fault for an unknown field, by the field. -/
theorem rejectUnknownFields_eq (params : Fields) (allowed : List String) :
    rejectUnknownFields params allowed =
      match unknownField? params.keys allowed with
      | some field => .error (faultOf (-32602) "invalid_request" (pyStr "unknown field: " ++ field))
      | none => .ok () := rfl

/-- Renaming stops at the first field that is named twice. -/
theorem renameParams_eq : ∀ params normalized : Fields, renameParams params normalized =
    match duplicateField? normalized.keys (renamed params).keys with
    | some field => .error (faultOf (-32602) "invalid_request" (pyStr "duplicate field: " ++ field))
    | none => .ok (normalized ++ renamed params)
  | [], normalized => by simp [renameParams, renamed, Fields.keys, duplicateField?]
  | (key, value) :: rest, normalized => by
      have hkeys : (renamed ((key, value) :: rest)).keys =
          (commonAliases.lookup key).getD key :: (renamed rest).keys := rfl
      rw [hkeys, duplicateField?, renameParams]
      by_cases hseen : (commonAliases.lookup key).getD key ∈ normalized.keys
      · rw [if_pos hseen, if_pos hseen]
      · rw [if_neg hseen, if_neg hseen, renameParams_eq rest]
        simp [renamed, Fields.keys]

/-- A call is refused for a field it names, or the parameters are renamed. -/
theorem normalizeParams_cases (method : RuntimeMethod) (params : Fields) :
    (∃ field lead, refusedField? method params = some field ∧ normalizeParams method params =
      .error (faultOf (-32602) "invalid_request" (pyStr lead ++ field))) ∨
    (refusedField? method params = none ∧ normalizeParams method params = .ok (renamed params)) := by
  have hrename := renameParams_eq params []
  have hkeys : Fields.keys [] = [] := rfl
  rw [hkeys] at hrename
  rw [normalizeParams, refusedField?]
  cases hduplicate : duplicateField? [] (renamed params).keys with
  | some field =>
    rw [hduplicate] at hrename
    exact .inl ⟨field, "duplicate field: ", rfl, by rw [hrename]; rfl⟩
  | none =>
    rw [hduplicate] at hrename
    dsimp only at hrename
    rw [List.nil_append] at hrename
    have hreject := rejectUnknownFields_eq (renamed params) method.fields
    cases hunknown : unknownField? (renamed params).keys method.fields with
    | some field =>
      rw [hunknown] at hreject
      exact .inl ⟨field, "unknown field: ", rfl, by simp [hrename, hreject, bind, Except.bind]⟩
    | none =>
      rw [hunknown] at hreject
      exact .inr ⟨rfl, by simp [hrename, hreject, bind, Except.bind, pure, Except.pure]⟩

theorem rejectUnknownFields_code {params : Fields} {allowed : List String} {fault : JsonRpcFault}
    (h : rejectUnknownFields params allowed = .error fault) : fault.code = -32602 := by
  rw [rejectUnknownFields] at h
  split at h
  · rw [← Except.error.inj h]
    rfl
  · cases h

theorem normalizeParams_code {method : RuntimeMethod} {params : Fields} {fault : JsonRpcFault}
    (h : normalizeParams method params = .error fault) : fault.code = -32602 := by
  rcases normalizeParams_cases method params with ⟨field, lead, -, hnormalize⟩ | ⟨-, hnormalize⟩
  · rw [hnormalize] at h
    rw [← Except.error.inj h]
    rfl
  · rw [hnormalize] at h
    cases h

theorem hello_code {params : Fields} {fault : JsonRpcFault} (h : hello api params = .error fault) :
    fault.code = -32602 ∨ fault.code = -32001 := by
  rw [hello] at h
  cases hreject : rejectUnknownFields params ["version"] with
  | error e =>
    exact .inl (rejectUnknownFields_code (hreject.trans
      (by simpa [bind, Except.bind, hreject] using h)))
  | ok _ =>
    simp only [hreject, bind, Except.bind] at h
    split at h
    · cases h
    · rw [← Except.error.inj h]
      exact .inr rfl

/-- A method is never answered as an invalid request. -/
theorem dispatchMethod_code {method : PyStr} {params : Fields} {server : RuntimeServer σ}
    {fault : JsonRpcFault} (h : (dispatchMethod api method params server).1 = .error fault) :
    fault.code ≠ -32700 ∧ fault.code ≠ -32600 := by
  have hrejected : ∀ {params allowed}, rejectUnknownFields params allowed = .error fault →
      fault.code ≠ -32700 ∧ fault.code ≠ -32600 := fun hreject => by
    rw [rejectUnknownFields_code hreject]
    decide
  rw [dispatchMethod] at h
  split at h
  · rcases hello_code h with hcode | hcode
    · rw [hcode]
      decide
    · rw [hcode]
      decide
  split at h
  · cases hreject : rejectUnknownFields params [] with
    | error e => exact hrejected (hreject.trans (by simpa [bind, Except.bind, hreject] using h))
    | ok _ => simp [bind, Except.bind, hreject, pure, Except.pure] at h
  split at h
  · split at h
    · rename_i hreject
      exact hrejected (hreject.trans (congrArg Except.error (Except.error.inj h)))
    · cases h
  split at h
  · rw [← Except.error.inj h]
    exact ⟨by simp, by simp⟩
  · split at h
    · rename_i hnormalize
      rw [normalizeParams_code (hnormalize.trans (congrArg Except.error (Except.error.inj h)))]
      decide
    · exact answer_code h

/-- A valid request is never answered as an invalid one. -/
theorem code_of_valid {request : Fields} {server : RuntimeServer σ} {fault : JsonRpcFault}
    (hfault : (dispatchRequest api request server).1 = .error fault)
    (hvalid : PassesValidation request) : fault.code ≠ -32700 ∧ fault.code ≠ -32600 := by
  rw [dispatchRequest, if_neg (by simp [hvalid.1])] at hfault
  split at hfault
  · rename_i hmethod
    have hsome := hvalid.2
    rw [hmethod] at hsome
    cases hsome
  · split at hfault
    · exact dispatchMethod_code hfault
    · rw [← Except.error.inj hfault]
      exact ⟨by simp [faultOf], by simp [faultOf]⟩

/-! ## 4. The whole dispatch -/

/-- Parsing raises faults only. -/
theorem not_escaped_iff {payload : Bytes} :
    (∀ e, parseRequest interp payload ≠ .error (.escaped e)) ↔
      (decodeUtf8 payload).isSome = true ∧ ∀ text, decodeUtf8 payload = some text →
        loads interp text ≠ .error .recursionError ∧ loads interp text ≠ .error .valueError := by
  rw [parseRequest]
  cases decodeUtf8 payload with
  | none => exact ⟨fun h => absurd rfl (h _), fun h => by simp at h⟩
  | some text =>
    dsimp only
    refine ⟨fun h => ⟨rfl, fun text' htext => ?_⟩, fun h e he => ?_⟩
    · obtain rfl := Option.some.inj htext
      refine ⟨fun hloads => ?_, fun hloads => ?_⟩
      · rw [hloads] at h
        exact h _ rfl
      · rw [hloads] at h
        exact h _ rfl
    · obtain ⟨hrecursion, hvalue⟩ := h.2 text rfl
      split at he
      · cases he
      · rename_i hloads
        exact hrecursion hloads
      · rename_i hloads
        exact hvalue hloads
      · cases he
      · cases he

/-- A text that is no request is refused in words of the source alone. -/
theorem parseRequest_fault {payload : Bytes} {f : JsonRpcFault}
    (h : parseRequest interp payload = .error (.fault f)) :
    ∃ code message text, (code = -32700 ∨ code = -32600) ∧
      f = faultOf code message (pyStr text) := by
  rw [parseRequest] at h
  split at h
  · cases h
  · split at h
    · obtain rfl := Raised.fault.inj (Except.error.inj h)
      exact ⟨_, _, _, .inl rfl, rfl⟩
    · cases h
    · cases h
    · cases h
    · obtain rfl := Raised.fault.inj (Except.error.inj h)
      exact ⟨_, _, _, .inr rfl, rfl⟩

/-- A fault is answered by the reply that is owed, or by nothing. -/
theorem answerFault_eq {request : Fields} {server : RuntimeServer σ} {fault : JsonRpcFault}
    (hfault : (dispatchRequest api request server).1 = .error fault) :
    answerFault interp (request.get (pyStr "id")) fault =
      match owedReply request (.error fault) with
      | some v => encodeJson interp v
      | none => .ok [] := by
  rw [answerFault, owedReply]
  cases hid : request.get (pyStr "id") with
  | some id => rfl
  | none =>
    by_cases hvalid : isVersionTwo request = true ∧ (methodOf request).isSome = true
    · have hcode := code_of_valid hfault hvalid
      rw [if_pos ⟨rfl, hcode⟩]
      dsimp only
      rw [if_pos (by simpa using hvalid)]
    · obtain ⟨fault', hfault', hcode⟩ := dispatchRequest_of_not_valid server hvalid
      rw [hfault, Except.error.injEq] at hfault'
      rw [if_neg (fun h => h.2.2 (hfault' ▸ hcode))]
      dsimp only
      rw [if_neg (by simpa using hvalid)]
      rfl

/-- What a dispatch returns when parsing raises faults only. -/
theorem dispatch_eq {payload : Bytes} {server : RuntimeServer σ}
    (h : ∀ e, parseRequest interp payload ≠ .error (.escaped e)) :
    (dispatch api interp payload server).1 =
      match owed api interp payload server with
      | some v => encodeJson interp v
      | none => .ok [] := by
  rw [dispatch, owed]
  cases hparse : parseRequest interp payload with
  | error raised =>
    cases raised with
    | escaped e => exact absurd hparse (h e)
    | fault f =>
      obtain ⟨code, message, text, hcode, rfl⟩ := parseRequest_fault hparse
      dsimp only
      rw [answerFault, if_neg (fun hnot => hcode.elim hnot.2.1 hnot.2.2)]
      rfl
  | ok request =>
    dsimp only
    have hfault := @answerFault_eq σ api interp request server
    cases hrequest : dispatchRequest api request server with
    | mk outcome server' =>
      rw [hrequest] at hfault
      cases outcome with
      | error fault => exact hfault rfl
      | ok result =>
        dsimp only
        rw [owedReply]
        cases request.get (pyStr "id") with
        | none => rfl
        | some id => rfl

/-- A reply that is owed is one, with the id of the request. -/
theorem isReply_of_owed {payload : Bytes} {server : RuntimeServer σ} {v : JsonValue}
    (h : owed api interp payload server = some v) : IsReply (idOf interp payload) v := by
  rw [owed] at h
  rw [idOf, requestOf]
  cases hparse : parseRequest interp payload with
  | error raised =>
    rw [hparse] at h
    cases raised with
    | escaped e => cases h
    | fault f => exact ⟨"error", errorObject f, .inr rfl, (Option.some.inj h).symm⟩
  | ok request =>
    rw [hparse] at h
    dsimp only [Option.bind_some] at h ⊢
    revert h
    cases (dispatchRequest api request server).1 with
    | ok result =>
      rw [owedReply]
      intro h
      obtain ⟨id, hid, rfl⟩ := Option.map_eq_some_iff.mp h
      rw [hid]
      exact ⟨"result", result, .inl rfl, rfl⟩
    | error fault =>
      rw [owedReply]
      intro h
      cases hid : request.get (pyStr "id") with
      | some id =>
        rw [hid] at h
        exact ⟨"error", errorObject fault, .inr rfl, (Option.some.inj h).symm⟩
      | none =>
        rw [hid] at h
        dsimp only at h
        split at h
        · cases h
        · exact ⟨"error", errorObject fault, .inr rfl, (Option.some.inj h).symm⟩

/-- Nothing is owed only to a valid request without an id. -/
theorem valid_of_not_owed {payload : Bytes} {server : RuntimeServer σ}
    (hparses : ∀ e, parseRequest interp payload ≠ .error (.escaped e))
    (h : owed api interp payload server = none) :
    ∃ request, requestOf interp payload = some request ∧ request.get (pyStr "id") = none ∧
      PassesValidation request := by
  rw [owed] at h
  rw [requestOf]
  cases hparse : parseRequest interp payload with
  | error raised =>
    rw [hparse] at h
    cases raised with
    | escaped e => exact absurd hparse (hparses e)
    | fault f => cases h
  | ok request =>
    rw [hparse] at h
    refine ⟨request, rfl, ?_⟩
    dsimp only at h
    have hinvalid := @dispatchRequest_of_not_valid σ api request server
    revert h hinvalid
    cases (dispatchRequest api request server).1 with
    | ok result =>
      rw [owedReply, Option.map_eq_none_iff]
      intro hid hinvalid
      refine ⟨hid, ?_⟩
      by_contra hvalid
      obtain ⟨fault, hfault, -⟩ := hinvalid hvalid
      cases hfault
    | error fault =>
      rw [owedReply]
      intro h _
      split at h
      · cases h
      · rename_i hid
        split at h
        · rename_i hvalid
          rw [Bool.and_eq_true] at hvalid
          exact ⟨hid, hvalid⟩
        · cases h

/-! ## 5. What is owed can be sent -/

/-- What a handler ends with fits as a result or an error. -/
theorem answered_outcome {outcome : HandlerOutcome} :
    Answered interp outcome.answer ↔ outcome.AnswerFits interp := by
  cases outcome with
  | returned result => exact Iff.rfl
  | runtimeApiError code message data =>
    have hcode : (JsonValue.int (errorCode code)).printable = true := by
      rw [errorCode]
      split_ifs <;> decide
    exact fits_errorObject hcode (errorData_ne_nil message data)
  | exception text =>
    have h : Fits interp 1 (errorObject (faultOf (-32020) "command_failed" (pyStr "" ++ text))) ↔ _ :=
      fits_faultOf (by decide)
    exact h

theorem fits_hello (packageVersion : String) : Fits interp 1 (.obj
    [(pyStr "version", .int protocolVersion), (pyStr "eccFeVersion", textValue packageVersion),
      (pyStr "capabilities", .arr (capabilities.map textValue))]) ↔ 3 ≤ interp.dumpsDepth := by
  have hversion : (JsonValue.int protocolVersion).printable = true := by decide
  rw [fits_obj, List.forall_mem_cons, List.forall_mem_cons, List.forall_mem_singleton, fits_arr,
    fits_int hversion, textValue]
  simp only [fits_pyStr, List.forall_mem_map, textValue]
  constructor
  · exact fun h => h.2.2.2.2.1
  · intro hthree
    have htwo : 1 + 1 ≤ interp.dumpsDepth := by omega
    exact ⟨htwo, ⟨htwo, htwo⟩, ⟨htwo, htwo⟩, htwo, hthree, fun _ _ => hthree⟩

/-- The answer to a method can be written exactly when what it quotes can. -/
theorem answered_method {method : PyStr} {params : Fields} {server : RuntimeServer σ} :
    Answered interp (dispatchMethod api method params server).1 ↔
      MethodFits api interp method params server := by
  have hunknown : ∀ field, Answered interp (.error (faultOf (-32602) "invalid_request"
      (pyStr "unknown field: " ++ field))) ↔ ErrorFits interp [.str field] :=
    fun field => fits_faultOf (by decide)
  rw [dispatchMethod, MethodFits]
  by_cases hhello : method = pyStr "rpc.hello"
  · rw [if_pos hhello, if_pos hhello, hello, rejectUnknownFields_eq]
    cases unknownField? params.keys ["version"] with
    | some field => exact hunknown field
    | none =>
      dsimp only [bind, Except.bind]
      split
      · exact fits_hello api.packageVersion
      · have hcode : (JsonValue.int (-32001)).printable = true := by decide
        rw [Answered, fits_errorObject hcode (List.cons_ne_nil _ _), ErrorFits, ErrorFits]
        refine and_congr_right fun hthree => ?_
        have hversion : Fits interp 3 (.int protocolVersion) := (fits_int (by decide)).mpr hthree
        simp [hthree, hversion]
  rw [if_neg hhello, if_neg hhello]
  by_cases hping : method = pyStr "rpc.ping"
  · rw [if_pos hping, if_pos (.inl hping), rejectUnknownFields_eq]
    cases unknownField? params.keys [] with
    | some field => exact hunknown field
    | none => exact fits_okResult
  rw [if_neg hping]
  by_cases hshutdown : method = pyStr "rpc.shutdown"
  · rw [if_pos hshutdown, if_pos (.inr hshutdown), rejectUnknownFields_eq]
    cases unknownField? params.keys [] with
    | some field => exact hunknown field
    | none => exact fits_okResult
  rw [if_neg hshutdown, if_neg (not_or.mpr ⟨hping, hshutdown⟩)]
  cases RuntimeMethod.ofName method with
  | none =>
    have hcode : (JsonValue.int (-32601)).printable = true := by decide
    rw [Answered, fits_errorObject hcode (List.cons_ne_nil _ _), ErrorFits, ErrorFits]
    refine and_congr_right fun hthree => ?_
    simp [hthree]
  | some m =>
    dsimp only
    rcases normalizeParams_cases m params with ⟨field, lead, hrefused, hnormalize⟩ |
      ⟨hrefused, hnormalize⟩
    · rw [hrefused, hnormalize]
      exact fits_faultOf (by decide)
    · rw [hrefused, hnormalize]
      exact answered_outcome

/-- The answer to a request can be written exactly when what it quotes can. -/
theorem answered_request {request : Fields} {server : RuntimeServer σ} :
    Answered interp (dispatchRequest api request server).1 ↔
      RequestFits api interp request server := by
  have hliteral : ∀ (code : Int) (message text : String), (JsonValue.int code).printable = true →
      (Answered interp (.error (faultOf code message (pyStr text))) ↔ ErrorFits interp []) :=
    fun _ _ _ hcode => fits_literalFault hcode
  rw [dispatchRequest, RequestFits]
  cases isVersionTwo request with
  | false => exact hliteral _ _ _ (by decide)
  | true =>
    simp only [Bool.not_true, Bool.false_eq_true, if_false]
    cases methodOf request with
    | none => exact hliteral _ _ _ (by decide)
    | some method =>
      dsimp only
      generalize (request.get (pyStr "params")).getD (.obj []) = params
      cases params with
      | obj params => exact answered_method
      | _ => exact hliteral _ _ _ (by decide)

/-- An invalid request is refused in words of the source alone. -/
theorem requestFits_of_not_valid {request : Fields} {server : RuntimeServer σ}
    (hvalid : ¬PassesValidation request) :
    RequestFits api interp request server ↔ 3 ≤ interp.dumpsDepth := by
  rw [RequestFits, ← errorFits_nil]
  rw [PassesValidation] at hvalid
  cases hversion : isVersionTwo request with
  | false => exact Iff.rfl
  | true =>
    cases hmethod : methodOf request with
    | none => exact Iff.rfl
    | some method => exact absurd ⟨hversion, by rw [hmethod]; rfl⟩ hvalid

/-- The reply to a request can be written exactly when its parts can. -/
theorem fits_owedReply {request : Fields} {server : RuntimeServer σ} :
    (∀ v, owedReply request (dispatchRequest api request server).1 = some v → Fits interp 0 v) ↔
      ReplyFits api interp request server := by
  have hanswered := @answered_request σ api interp request server
  have hinvalid := @dispatchRequest_of_not_valid σ api request server
  revert hanswered hinvalid
  rw [ReplyFits]
  cases (dispatchRequest api request server).1 with
  | ok result =>
    intro hanswered hinvalid
    rw [Answered] at hanswered
    rw [owedReply]
    cases request.get (pyStr "id") with
    | some id => simpa [fits_replyObject] using fun _ => hanswered
    | none =>
      have hvalid : PassesValidation request := by
        by_contra hvalid
        obtain ⟨fault, hfault, -⟩ := hinvalid hvalid
        cases hfault
      simp [hvalid]
  | error fault =>
    intro hanswered _
    rw [Answered] at hanswered
    rw [owedReply]
    cases request.get (pyStr "id") with
    | some id => simpa [fits_replyObject] using fun _ => hanswered
    | none =>
      dsimp only
      by_cases hvalid : isVersionTwo request = true ∧ (methodOf request).isSome = true
      · rw [if_pos (by simpa using hvalid)]
        exact ⟨fun _ => .inl hvalid, fun _ v hv => (by cases hv)⟩
      · have hthree := hanswered.trans (requestFits_of_not_valid hvalid)
        rw [if_neg (by simpa using hvalid)]
        simp only [Option.some.injEq, forall_eq', fits_replyObject, fits_null]
        constructor
        · exact fun h => .inr (hthree.mp h.2)
        · rintro (h | h)
          · exact absurd h hvalid
          · exact ⟨by omega, hthree.mpr h⟩

/-- Nothing but literals is in the reply to a text that is no JSON object. -/
theorem fits_owed {payload : Bytes} {server : RuntimeServer σ}
    (hparses : ∀ e, parseRequest interp payload ≠ .error (.escaped e)) :
    (∀ v, owed api interp payload server = some v → Fits interp 0 v) ↔
      (requestOf interp payload = none → 3 ≤ interp.dumpsDepth) ∧
        ∀ request, requestOf interp payload = some request → ReplyFits api interp request server := by
  rw [owed, requestOf]
  cases hparse : parseRequest interp payload with
  | ok request => simpa using fits_owedReply
  | error raised =>
    cases raised with
    | escaped e => exact absurd hparse (hparses e)
    | fault f =>
      obtain ⟨code, message, text, hcode, rfl⟩ := parseRequest_fault hparse
      have hprintable : (JsonValue.int code).printable = true := by
        rcases hcode with rfl | rfl <;> decide
      simp only [Option.some.injEq, forall_eq', fits_replyObject, fits_null, fits_literalFault hprintable,
        errorFits_nil]
      constructor
      · exact fun h => ⟨fun _ => h.2, fun _ hnone => by cases hnone⟩
      · intro h
        have hthree : 3 ≤ interp.dumpsDepth := h.1 (by trivial)
        exact ⟨by omega, hthree⟩

variable (api interp)

/-- A dispatch returns what it has to exactly when decoding and parsing raise nothing but
faults and the reply that is owed can be sent. -/
theorem dispatches_iff (payload : Bytes) (server : RuntimeServer σ) :
    Dispatches api interp payload server ↔ Dispatchable api interp payload server := by
  constructor
  · rintro ⟨text, hdispatch, hanswers⟩
    have hparses : ∀ e, parseRequest interp payload ≠ .error (.escaped e) := by
      intro e he
      rw [dispatch, he] at hdispatch
      cases hdispatch
    obtain ⟨hdecodes, hloads⟩ := not_escaped_iff.mp hparses
    have hsendable : ∀ v, owed api interp payload server = some v → Sendable interp v := by
      intro v howed
      rw [dispatch_eq hparses, howed] at hdispatch
      exact sendable_of_framed (encodeJson_eq_ok.mp hdispatch) hanswers.framed
    obtain ⟨hrefuses, hsends⟩ := (fits_owed hparses).mp fun v howed => (hsendable v howed).fits
    exact ⟨hdecodes, hloads, hrefuses, hsends, fun v bytes howed => (hsendable v howed).length bytes⟩
  · intro h
    have hparses := not_escaped_iff.mpr ⟨h.decodes, h.parses⟩
    rw [Dispatches, dispatch_eq hparses]
    cases howed : owed api interp payload server with
    | none =>
      exact ⟨[], rfl, framed_nil, fun _ => valid_of_not_owed hparses howed, fun hne => absurd rfl hne⟩
    | some v =>
      have hfits := (fits_owed hparses).mpr ⟨h.refuses, h.sends⟩ v howed
      have hsend := hfits.sendable fun bytes => h.length v bytes howed
      obtain ⟨name, content, hname, rfl⟩ := isReply_of_owed howed
      refine ⟨_, encodeJson_eq_ok.mpr hsend.dumps, hsend.framed, fun hempty => ?_, fun _ => ?_⟩
      · exact absurd hempty (text_replyObject_ne_nil _ _)
      · exact ⟨_, hsend.dumps, name, content, hname, rfl⟩

end

/-- A byte that no UTF-8 text holds. -/
def notUtf8 : Bytes := [0xFF]

/-- An API whose handlers return null, on an interpreter with the usual limits. -/
def quietApi : RuntimeApi Unit := ⟨fun _ _ _ => (.returned .null, ()), id, "unknown"⟩

theorem isFloatText_zero : isFloatText "0.0".toList = true := by decide

def usualInterpreter : Interpreter :=
  ⟨990, 990, fun _ => ⟨"0.0", isFloatText_zero⟩, fun _ => "Expecting value: line 1 column 1 (char 0)"⟩

/-- The decoding error leaves the dispatch. -/
theorem notUtf8_escapes :
    ¬ ∀ (σ : Type) (api : RuntimeApi σ) (interp : Interpreter) (payload : Bytes)
      (server : RuntimeServer σ), Dispatches api interp payload server := by
  intro hall
  obtain ⟨text, hdispatch, -⟩ := hall Unit quietApi usualInterpreter notUtf8 ⟨(), false⟩
  have hdecode : decodeUtf8 notUtf8 = none := by decide +kernel
  rw [dispatch, parseRequest, hdecode] at hdispatch
  cases hdispatch

end EccFe.Runtime.Server
