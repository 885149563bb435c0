/-
EccFe.Runtime.Transport — `fecompiler/runtime/transport.py`: frames on stdio.

A frame is `Content-Length: n`, an empty line and `n` payload bytes. The decoder
keeps what it has read in a buffer, and one round of its loop is `front`: the
header is parsed once its end is in the buffer, and the payload is taken once it
is complete.
-/
import EccFe.Wire.Framing
import EccFe.Python.Path
import EccFe.Python.Number
import EccFe.Python.JsonText

namespace EccFe.Runtime.Transport

open Python Wire

abbrev Bytes := List UInt8

/-! ## 1. Frames -/

/-- `b"\r\n\r\n"`. -/
def headerSeparator : Bytes := [13, 10, 13, 10]

def defaultMaxPayloadSize : Int := 16 * 1024 * 1024

/-- `b"%d" % n`; refused when the number has too many digits. -/
def decimalBytes (n : Nat) : Option Bytes :=
  if maxStrDigits < (natText n).length then none else some (asciiBytes (String.ofList (natText n)))

/-- `encode_content_length_frame(payload)`; `none` when it raises. -/
def encodeContentLengthFrame (payload : Bytes) : Option Bytes :=
  (decimalBytes payload.length).map fun length =>
    asciiBytes "Content-Length: " ++ length ++ headerSeparator ++ payload

/-! ## 2. Headers -/

inductive TransportError where
  | malformedHeaderLine
  | exactlyOneContentLength
  | notAnInteger
  | negative
  | tooLarge
  deriving DecidableEq

def TransportError.message : TransportError → String
  | malformedHeaderLine => "malformed header line before Content-Length"
  | exactlyOneContentLength => "exactly one Content-Length header is required"
  | notAnInteger => "Content-Length must be an integer"
  | negative => "Content-Length must be non-negative"
  | tooLarge => "Content-Length exceeds maximum payload size"

/-- `bytes.decode("ascii", errors="replace")`. -/
def decodeAscii (bytes : Bytes) : List Char :=
  bytes.map fun b => if b < 128 then Char.ofNat b.toNat else '\uFFFD'

/-- `text.split("\r\n")`. -/
def splitCrLf : List Char → List (List Char)
  | [] => [[]]
  | '\r' :: '\n' :: rest => [] :: splitCrLf rest
  | c :: rest =>
      match splitCrLf rest with
      | line :: lines => (c :: line) :: lines
      | [] => [[c]]

/-- `line.partition(":")`; `none` when there is no colon. -/
def partitionColon (line : List Char) : Option (List Char × List Char) :=
  if ':' ∈ line then some (line.takeWhile (· ≠ ':'), (line.dropWhile (· ≠ ':')).drop 1) else none

/-- The values of the Content-Length lines. -/
def lengthValues : List (List Char) → Except TransportError (List String)
  | [] => .ok []
  | line :: lines =>
      if line = [] then lengthValues lines
      else
        match partitionColon line with
        | none => .error .malformedHeaderLine
        | some (name, value) =>
            if lowerText name = "content-length".toList then
              (lengthValues lines).map (strip (String.ofList value) :: ·)
            else lengthValues lines

def parseContentLength (maxPayloadSize : Int) (header : List Char) : Except TransportError Nat := do
  match ← lengthValues (splitCrLf header) with
  | [value] =>
      match intOfText value with
      | none => .error .notAnInteger
      | some contentLength =>
          if contentLength < 0 then .error .negative
          else if maxPayloadSize < contentLength then .error .tooLarge
          else .ok contentLength.toNat
  | _ => .error .exactlyOneContentLength

/-! ## 3. The decoder -/

/-- The bytes before the first separator and those after it. -/
def splitHeader : Bytes → Option (Bytes × Bytes)
  | [] => none
  | 13 :: 10 :: 13 :: 10 :: rest => some ([], rest)
  | b :: rest => (splitHeader rest).map fun (header, body) => (b :: header, body)

/-- One round of `feed`. -/
def front (maxPayloadSize : Int) (buffer : Bytes) : Front Bytes UInt8 TransportError :=
  match splitHeader buffer with
  | none => .more
  | some (header, body) =>
      match parseContentLength maxPayloadSize (decodeAscii header) with
      | .error e => .error e
      | .ok contentLength =>
          if body.length < contentLength then .more
          else .item (body.take contentLength) (body.drop contentLength)

/-- A header is split off at the first blank line. -/
theorem splitHeader_eq : ∀ {buffer header body : Bytes}, splitHeader buffer = some (header, body) →
    buffer = header ++ headerSeparator ++ body := by
  intro buffer
  induction buffer using splitHeader.induct with
  | case1 => intro header body h; cases h
  | case2 rest =>
    intro header body h
    cases h
    rfl
  | case3 b rest hne ih =>
    intro header body h
    rw [splitHeader.eq_3 _ _ hne] at h
    obtain ⟨⟨header', body'⟩, hrest, heq⟩ := Option.map_eq_some_iff.mp h
    cases heq
    rw [ih hrest]
    rfl

/-- More bytes do not move the end of a header. -/
theorem splitHeader_append {buffer header body : Bytes} (more : Bytes) :
    splitHeader buffer = some (header, body) →
      splitHeader (buffer ++ more) = some (header, body ++ more) := by
  induction buffer using splitHeader.induct generalizing header body with
  | case1 => intro h; cases h
  | case2 rest =>
    intro h
    cases h
    rfl
  | case3 b rest hne ih =>
    intro h
    rw [splitHeader.eq_3 _ _ hne] at h
    obtain ⟨⟨header', body'⟩, hrest, heq⟩ := Option.map_eq_some_iff.mp h
    cases heq
    have hne' : ∀ tail, b = 13 → rest ++ more = 10 :: 13 :: 10 :: tail → False := by
      intro tail hb htail
      -- the rest holds a whole separator, so it is no shorter than the three bytes
      have hlen : 4 ≤ rest.length := by
        rw [splitHeader_eq hrest]
        simp [headerSeparator]
        omega
      match rest, hlen with
      | b₁ :: b₂ :: b₃ :: rest', _ =>
        simp only [List.cons_append, List.cons.injEq] at htail
        exact hne rest' hb (by simp [htail.1, htail.2.1, htail.2.2.1])
    rw [List.cons_append, splitHeader.eq_3 _ _ hne', ih hrest]
    rfl

/-- A header without a carriage return ends at the first separator. -/
theorem splitHeader_of_not_mem {header : Bytes} (h : 13 ∉ header) (body : Bytes) :
    splitHeader (header ++ headerSeparator ++ body) = some (header, body) := by
  induction header with
  | nil => rfl
  | cons b rest ih =>
    rw [List.mem_cons, not_or] at h
    have hne : ∀ tail, b = 13 → rest ++ headerSeparator ++ body = 10 :: 13 :: 10 :: tail → False :=
      fun _ hb _ => h.1 hb.symm
    rw [List.cons_append, List.cons_append, splitHeader.eq_3 _ _ hne, ih h.2]
    rfl

/-- Where the header ends does not depend on what follows it. -/
theorem splitHeader_separator {buffer header body : Bytes} :
    splitHeader buffer = some (header, body) →
      splitHeader (header ++ headerSeparator) = some (header, []) := by
  induction buffer using splitHeader.induct generalizing header body with
  | case1 => intro h; cases h
  | case2 rest =>
    intro h
    cases h
    rfl
  | case3 b rest hne ih =>
    intro h
    rw [splitHeader.eq_3 _ _ hne] at h
    obtain ⟨⟨header', body'⟩, hrest, heq⟩ := Option.map_eq_some_iff.mp h
    cases heq
    have hne' : ∀ tail, b = 13 → header' ++ headerSeparator = 10 :: 13 :: 10 :: tail → False := by
      intro tail hb htail
      refine hne (tail ++ body) hb ?_
      rw [splitHeader_eq hrest, htail]
      rfl
    rw [List.cons_append, splitHeader.eq_3 _ _ hne', ih hrest]
    rfl

theorem splitHeader_body {buffer header body : Bytes} (h : splitHeader buffer = some (header, body))
    (body' : Bytes) : splitHeader (header ++ headerSeparator ++ body') = some (header, body') := by
  have happend := splitHeader_append body' (splitHeader_separator h)
  rwa [List.nil_append] at happend

/-- The loop of the decoder as a framing. -/
def framing (maxPayloadSize : Int) : Framing Bytes UInt8 TransportError where
  front := front maxPayloadSize
  item_local := by
    intro buffer payload rest h
    unfold front at h
    split at h
    · cases h
    rename_i header body hsplit
    split at h
    · cases h
    rename_i contentLength hparse
    split at h
    · cases h
    rename_i hlength
    cases h
    refine ⟨header ++ headerSeparator ++ body.take contentLength, by simp [headerSeparator], ?_, ?_⟩
    · rw [splitHeader_eq hsplit, List.append_assoc _ (body.take _), List.take_append_drop]
    · intro more
      have htake : (body.take contentLength).length = contentLength := by
        rw [List.length_take]
        omega
      rw [front, List.append_assoc, splitHeader_body hsplit]
      dsimp only
      rw [hparse]
      dsimp only
      rw [if_neg (by rw [List.length_append]; omega), List.take_left' htake, List.drop_left' htake]
  error_append := by
    intro buffer e more h
    unfold front at h ⊢
    split at h
    · cases h
    rename_i header body hsplit
    rw [splitHeader_append more hsplit]
    dsimp only
    split at h
    · rename_i hparse
      cases h
      rfl
    · split at h <;> cases h

structure ContentLengthDecoder where
  buffer : Bytes
  maxPayloadSize : Int

def ContentLengthDecoder.fresh (maxPayloadSize : Int) : ContentLengthDecoder := ⟨[], maxPayloadSize⟩

/-- `feed(data)`: the messages or the error, and the decoder afterwards. The messages
of a call that raises are lost, and their bytes have left the buffer. -/
def ContentLengthDecoder.feed (d : ContentLengthDecoder) (data : Bytes) :
    Except TransportError (List Bytes) × ContentLengthDecoder :=
  let drained := (framing d.maxPayloadSize).drain (d.buffer ++ data)
  (match drained.error with
    | some e => .error e
    | none => .ok drained.items,
    { d with buffer := drained.rest })

/-- The chunks fed in order until a call raises: what each call returned, the decoder
afterwards, and the error. -/
def ContentLengthDecoder.feedAll (d : ContentLengthDecoder) :
    List Bytes → List (List Bytes) × ContentLengthDecoder × Option TransportError
  | [] => ([], d, none)
  | chunk :: chunks =>
      match d.feed chunk with
      | (.error e, d') => ([], d', some e)
      | (.ok messages, d') =>
          let (returned, last, error) := d'.feedAll chunks
          (messages :: returned, last, error)

theorem ContentLengthDecoder.feedAll_eq (chunks : List Bytes) : ∀ d : ContentLengthDecoder,
    d.feedAll chunks =
      (((framing d.maxPayloadSize).feedAll d.buffer chunks).1,
        ⟨((framing d.maxPayloadSize).feedAll d.buffer chunks).2.1, d.maxPayloadSize⟩,
        ((framing d.maxPayloadSize).feedAll d.buffer chunks).2.2) := by
  induction chunks with
  | nil => exact fun d => rfl
  | cons chunk chunks ih =>
    intro d
    rw [feedAll, feed, Framing.feedAll]
    cases herror : ((framing d.maxPayloadSize).drain (d.buffer ++ chunk)).error with
    | some e => rfl
    | none =>
      dsimp only
      rw [ih]

/-! ## 4. Encoded frames -/

theorem asciiBytes_ofList (cs : List Char) :
    asciiBytes (String.ofList cs) = cs.map fun c => UInt8.ofNat c.toNat := by
  rw [asciiBytes, String.toList_ofList]

theorem asciiBytes_append (s : String) (cs : List Char) :
    asciiBytes s ++ asciiBytes (String.ofList cs) = asciiBytes (String.ofList (s.toList ++ cs)) := by
  rw [asciiBytes_ofList, asciiBytes_ofList, asciiBytes, List.map_append]

theorem decodeAscii_asciiBytes {cs : List Char} (h : ∀ c ∈ cs, c.toNat < 128) :
    decodeAscii (asciiBytes (String.ofList cs)) = cs := by
  rw [asciiBytes_ofList, decodeAscii, List.map_map]
  refine (List.map_congr_left fun c hc => ?_).trans (List.map_id cs)
  have hbyte : (UInt8.ofNat c.toNat).toNat = c.toNat :=
    UInt8.toNat_ofNat_of_lt' (lt_trans (h c hc) (by decide))
  have hlt : UInt8.ofNat c.toNat < 128 := by
    rw [UInt8.lt_iff_toNat_lt, hbyte]
    exact h c hc
  simp only [Function.comp_apply, if_pos hlt, hbyte, Char.ofNat_toNat, id_eq]

/-- Text without a carriage return is one line. -/
theorem splitCrLf_of_not_mem : ∀ {cs : List Char}, '\r' ∉ cs → splitCrLf cs = [cs]
  | [], _ => rfl
  | c :: rest, h => by
      rw [List.mem_cons, not_or] at h
      rw [splitCrLf.eq_3 _ _ (fun _ hc _ => h.1 hc.symm), splitCrLf_of_not_mem h.2]

/-- The header line of a number. -/
def lengthLine (digits : List Char) : List Char := "Content-Length: ".toList ++ digits

theorem lengthValues_lengthLine {digits : List Char} (h : ∀ c ∈ digits, isSpace c = false) :
    lengthValues [lengthLine digits] = .ok [String.ofList digits] := by
  have hpartition : partitionColon (lengthLine digits) =
      some ("Content-Length".toList, ' ' :: digits) := by
    have hmem : ':' ∈ lengthLine digits := List.mem_append_left _ (by decide)
    rw [partitionColon, if_pos hmem]
    rfl
  have hname : lowerText "Content-Length".toList = "content-length".toList := by decide
  have hstrip : strip (String.ofList (' ' :: digits)) = String.ofList digits := by
    have hdigits := stripBy_of_forall h
    rw [strip, String.toList_ofList]
    exact congrArg String.ofList hdigits
  have hne : lengthLine digits ≠ [] := List.append_ne_nil_of_left_ne_nil (by decide) _
  rw [lengthValues, if_neg hne, hpartition]
  dsimp only
  rw [if_pos hname, hstrip]
  rfl

/-- The header of a frame is read as the length of its payload. -/
theorem parseContentLength_lengthLine {maxPayloadSize : Int} {n : Nat}
    (hdigits : (natText n).length ≤ maxStrDigits) (hmax : (n : Int) ≤ maxPayloadSize) :
    parseContentLength maxPayloadSize (lengthLine (natText n)) = .ok n := by
  have hall := List.all_eq_true.mp (natText_isDigit n)
  have hreturn : '\r' ∉ lengthLine (natText n) := by
    intro hmem
    rcases List.mem_append.mp hmem with hmem | hmem
    · revert hmem
      decide
    · exact absurd (hall _ hmem) (by decide)
  rw [parseContentLength, splitCrLf_of_not_mem hreturn,
    lengthValues_lengthLine fun c hc => isSpace_of_isDigit (hall c hc)]
  dsimp only [bind, Except.bind]
  rw [intOfText_of_isDigit (natText_ne_nil n) (natText_isDigit n) hdigits, digitsValue_natText]
  dsimp only
  rw [if_neg (by omega), if_neg (by omega), Int.toNat_natCast]

/-- An encoded frame at the front of a buffer. -/
theorem front_encoded {maxPayloadSize : Int} {payload frame : Bytes}
    (hencode : encodeContentLengthFrame payload = some frame)
    (hmax : (payload.length : Int) ≤ maxPayloadSize) (rest : Bytes) :
    front maxPayloadSize (frame ++ rest) = .item payload rest := by
  rw [encodeContentLengthFrame, decimalBytes] at hencode
  split at hencode
  · cases hencode
  rename_i hdigits
  simp only [Option.map_some, Option.some.injEq] at hencode
  have hall := List.all_eq_true.mp (natText_isDigit payload.length)
  have hheader : asciiBytes "Content-Length: " ++
      asciiBytes (String.ofList (natText payload.length)) =
      asciiBytes (String.ofList (lengthLine (natText payload.length))) :=
    asciiBytes_append "Content-Length: " (natText payload.length)
  have hascii : ∀ c ∈ lengthLine (natText payload.length), c.toNat < 128 := by
    intro c hc
    have hname : "Content-Length: ".toList.all (·.toNat < 128) = true := by decide
    rcases List.mem_append.mp hc with hc | hc
    · exact of_decide_eq_true (List.all_eq_true.mp hname c hc)
    · have hdigit := isDigit_iff.mp (hall c hc)
      omega
  have hreturn : 13 ∉ asciiBytes (String.ofList (lengthLine (natText payload.length))) := by
    intro hmem
    have hchar : Char.ofNat 13 ∈ decodeAscii (asciiBytes
        (String.ofList (lengthLine (natText payload.length)))) :=
      List.mem_map.mpr ⟨13, hmem, by decide⟩
    rw [decodeAscii_asciiBytes hascii] at hchar
    rcases List.mem_append.mp hchar with hchar | hchar
    · revert hchar
      decide
    · exact absurd (hall _ hchar) (by decide)
  rw [front, ← hencode, hheader, List.append_assoc _ payload rest, splitHeader_of_not_mem hreturn]
  dsimp only
  rw [decodeAscii_asciiBytes hascii, parseContentLength_lengthLine (by omega) hmax]
  dsimp only
  rw [if_neg (by rw [List.length_append]; omega), List.take_left, List.drop_left]

/-- The frames of a list of payloads. -/
theorem drain_encoded {maxPayloadSize : Int} : ∀ {payloads frames : List Bytes},
    payloads.mapM encodeContentLengthFrame = some frames →
    (∀ payload ∈ payloads, (payload.length : Int) ≤ maxPayloadSize) →
    (framing maxPayloadSize).drain frames.flatten = ⟨payloads, [], none⟩ := by
  intro payloads
  induction payloads with
  | nil =>
    intro frames h _
    cases h
    exact (framing maxPayloadSize).drain_more rfl
  | cons payload payloads ih =>
    intro frames h hmax
    rw [List.mapM_cons] at h
    obtain ⟨frame, hframe, h⟩ := Option.bind_eq_some_iff.mp h
    obtain ⟨frames', hframes, h⟩ := Option.bind_eq_some_iff.mp h
    cases h
    rw [List.forall_mem_cons] at hmax
    rw [List.flatten_cons, (framing maxPayloadSize).drain_item (front_encoded hframe hmax.1 _),
      ih hframes hmax.2]

/-- Whatever way the frames of a list of payloads are cut, the decoder returns the payloads in
order, raises nothing and ends with an empty buffer. -/
theorem feedAll_encoded {maxPayloadSize : Int} {payloads frames chunks : List Bytes}
    (hmax : ∀ payload ∈ payloads, (payload.length : Int) ≤ maxPayloadSize)
    (hframes : payloads.mapM encodeContentLengthFrame = some frames)
    (hcut : chunks.flatten = frames.flatten) :
    ∃ returned, (ContentLengthDecoder.fresh maxPayloadSize).feedAll chunks =
        (returned, ⟨[], maxPayloadSize⟩, none) ∧ returned.flatten = payloads := by
  have hdrain := drain_encoded hframes hmax
  rw [← hcut, ← List.nil_append chunks.flatten] at hdrain
  have herror := (framing maxPayloadSize).feedAll_error chunks [] rfl
  have hall := (framing maxPayloadSize).feedAll_of_no_error chunks [] rfl (by rw [hdrain])
  rw [hdrain] at herror hall
  refine ⟨((framing maxPayloadSize).feedAll [] chunks).1, ?_, hall.1⟩
  rw [ContentLengthDecoder.feedAll_eq]
  dsimp only [ContentLengthDecoder.fresh]
  rw [hall.2, herror]

/-! ## 5. Malformed streams -/

/-- A frame the decoder accepts: a header that ends at its first separator, and as many
payload bytes as it says. -/
def IsFrame (maxPayloadSize : Int) (frame payload : Bytes) : Prop :=
  ∃ header, splitHeader frame = some (header, payload) ∧
    parseContentLength maxPayloadSize (decodeAscii header) = .ok payload.length

/-- A stream is valid frames followed by `tail`. -/
inductive Frames (maxPayloadSize : Int) (tail : Bytes) : Bytes → List Bytes → Prop
  | nil : Frames maxPayloadSize tail tail []
  | cons {frame payload stream : Bytes} {payloads : List Bytes}
      (hframe : IsFrame maxPayloadSize frame payload)
      (hrest : Frames maxPayloadSize tail stream payloads) :
      Frames maxPayloadSize tail (frame ++ stream) (payload :: payloads)

/-- What a stream goes on with is a complete header that is malformed. -/
def Malformed (maxPayloadSize : Int) (tail : Bytes) : Prop :=
  ∃ header body e, splitHeader tail = some (header, body) ∧
    parseContentLength maxPayloadSize (decodeAscii header) = .error e

/-- A chunk brings the last byte of a valid frame and, after it, the end of the first
malformed header. -/
def Loses (maxPayloadSize : Int) (chunks : List Bytes) : Prop :=
  ∃ pre chunk post payloads tail, chunks = pre ++ chunk :: post ∧
    Frames maxPayloadSize tail (pre ++ [chunk]).flatten payloads ∧
    Malformed maxPayloadSize tail ∧ tail.length < chunk.length

/-- The messages `feed` returned before the first error. -/
def delivered (maxPayloadSize : Int) (chunks : List Bytes) : List Bytes :=
  ((ContentLengthDecoder.fresh maxPayloadSize).feedAll chunks).1.flatten

/-- Some call of `feed` raised. -/
def raises (maxPayloadSize : Int) (chunks : List Bytes) : Bool :=
  ((ContentLengthDecoder.fresh maxPayloadSize).feedAll chunks).2.2.isSome

section

variable {maxPayloadSize : Int}

/-- A frame at the front is read off. -/
theorem front_frame {frame payload : Bytes} (h : IsFrame maxPayloadSize frame payload)
    (rest : Bytes) : front maxPayloadSize (frame ++ rest) = .item payload rest := by
  obtain ⟨header, hsplit, hparse⟩ := h
  rw [front, splitHeader_append rest hsplit]
  dsimp only
  rw [hparse]
  dsimp only
  rw [if_neg (by rw [List.length_append]; omega), List.take_left, List.drop_left]

/-- A malformed front is an error. -/
theorem front_malformed {tail : Bytes} (h : Malformed maxPayloadSize tail) :
    ∃ e, front maxPayloadSize tail = .error e := by
  obtain ⟨header, body, e, hsplit, hparse⟩ := h
  refine ⟨e, ?_⟩
  rw [front, hsplit]
  dsimp only
  rw [hparse]

/-- Only a malformed front is one. -/
theorem malformed_of_front {tail : Bytes} {e : TransportError}
    (h : front maxPayloadSize tail = .error e) : Malformed maxPayloadSize tail := by
  unfold front at h
  split at h
  · cases h
  rename_i header body hsplit
  split at h
  · rename_i e' hparse
    exact ⟨header, body, e', hsplit, hparse⟩
  · split at h <;> cases h

/-- Valid frames up to a malformed header are what the decoder takes. -/
theorem drain_frames {stream tail : Bytes} {payloads : List Bytes} {e : TransportError}
    (h : Frames maxPayloadSize tail stream payloads)
    (htail : front maxPayloadSize tail = .error e) :
    (framing maxPayloadSize).drain stream = ⟨payloads, tail, some e⟩ := by
  induction h with
  | nil => exact (framing maxPayloadSize).drain_error htail
  | cons hframe _ ih =>
    rw [(framing maxPayloadSize).drain_item (front_frame hframe _), ih]

/-- What the decoder takes are valid frames. -/
theorem frames_drain (stream : Bytes) :
    Frames maxPayloadSize ((framing maxPayloadSize).drain stream).rest stream
      ((framing maxPayloadSize).drain stream).items := by
  induction stream using (framing maxPayloadSize).drain_induct with
  | more stream hfront =>
    rw [(framing maxPayloadSize).drain_more hfront]
    exact .nil
  | error stream e hfront =>
    rw [(framing maxPayloadSize).drain_error hfront]
    exact .nil
  | item stream payload rest hfront ih =>
    rw [(framing maxPayloadSize).drain_item hfront]
    change front maxPayloadSize stream = .item payload rest at hfront
    unfold front at hfront
    split at hfront
    · cases hfront
    rename_i header body hsplit
    split at hfront
    · cases hfront
    rename_i contentLength hparse
    split at hfront
    · cases hfront
    cases hfront
    have htake : (body.take contentLength).length = contentLength := by
      rw [List.length_take]
      omega
    have hstream : stream = header ++ headerSeparator ++ body.take contentLength ++
        body.drop contentLength := by
      rw [List.append_assoc _ (body.take _), List.take_append_drop]
      exact splitHeader_eq hsplit
    have hframe : IsFrame maxPayloadSize (header ++ headerSeparator ++ body.take contentLength)
        (body.take contentLength) :=
      ⟨header, splitHeader_body hsplit _, by rw [htake]; exact hparse⟩
    have hcons := Frames.cons hframe ih
    rwa [← hstream] at hcons

/-- Whether the feeds raise depends on all bytes together. -/
theorem raises_eq (chunks : List Bytes) : raises maxPayloadSize chunks =
    ((framing maxPayloadSize).drain chunks.flatten).error.isSome := by
  rw [raises, ContentLengthDecoder.feedAll_eq]
  dsimp only [ContentLengthDecoder.fresh]
  rw [(framing maxPayloadSize).feedAll_error chunks [] rfl, List.nil_append]

theorem delivered_eq (chunks : List Bytes) : delivered maxPayloadSize chunks =
    ((framing maxPayloadSize).feedAll [] chunks).1.flatten := by
  rw [delivered, ContentLengthDecoder.feedAll_eq]
  rfl

/-- Every complete valid frame is delivered, exactly when no chunk loses one. -/
theorem delivered_iff (chunks : List Bytes) :
    delivered maxPayloadSize chunks = ((framing maxPayloadSize).drain chunks.flatten).items ↔
      ¬Loses maxPayloadSize chunks := by
  rw [delivered_eq]
  cases herror : ((framing maxPayloadSize).drain chunks.flatten).error with
  | none =>
    have hall := (framing maxPayloadSize).feedAll_of_no_error chunks [] rfl
      (by rwa [List.nil_append])
    rw [List.nil_append] at hall
    refine iff_of_true hall.1 ?_
    rintro ⟨pre, chunk, post, payloads, tail, rfl, hframes, hmalformed, -⟩
    obtain ⟨e, he⟩ := front_malformed hmalformed
    have hstream : (pre ++ chunk :: post).flatten = (pre ++ [chunk]).flatten ++ post.flatten := by
      simp
    have hdrain := (framing maxPayloadSize).drain_append_of_error
      (congrArg Drained.error (drain_frames hframes he)) post.flatten
    rw [hstream, hdrain] at herror
    cases herror
  | some e =>
    obtain ⟨pre, chunk, post, rfl, hpre, hchunk, hgiven⟩ :=
      (framing maxPayloadSize).feedAll_of_error chunks [] rfl (by rwa [List.nil_append])
    simp only [List.nil_append] at hpre hchunk hgiven
    have hstream : (pre ++ chunk :: post).flatten = (pre ++ [chunk]).flatten ++ post.flatten := by
      simp
    have hpiece : (pre ++ [chunk]).flatten = pre.flatten ++ chunk := by simp
    have hdrain := (framing maxPayloadSize).drain_append hpre chunk
    have hmore := (framing maxPayloadSize).front_rest _ hpre
    have hframes : Frames maxPayloadSize _ _ _ := frames_drain (pre ++ [chunk]).flatten
    have htail := (framing maxPayloadSize).front_rest_error hchunk
    rw [hgiven, hstream, (framing maxPayloadSize).drain_append_of_error hchunk, hpiece, hdrain,
      List.self_eq_append_right]
    rw [hpiece, hdrain] at hframes htail
    constructor
    · rintro hitems ⟨pre', chunk', post', payloads, tail, heq, hframes', hmalformed, hlength⟩
      obtain ⟨e', he'⟩ := front_malformed hmalformed
      have hdrain' := drain_frames hframes' he'
      have hpiece' : (pre' ++ [chunk']).flatten = pre'.flatten ++ chunk' := by simp
      have hpre' : ((framing maxPayloadSize).drain pre'.flatten).error = none := by
        by_contra hne
        obtain ⟨e'', he''⟩ := Option.ne_none_iff_exists'.mp hne
        rw [hpiece', (framing maxPayloadSize).drain_append_of_error he'', Drained.mk.injEq] at hdrain'
        rw [← hdrain'.2.1, List.length_append] at hlength
        omega
      obtain ⟨rfl, rfl⟩ := (framing maxPayloadSize).error_piece_unique heq hpre
        (by rw [hchunk]; exact Option.some_ne_none e) hpre'
        (by rw [hdrain']; exact Option.some_ne_none e')
      -- no item in the last chunk: the malformed header starts before it
      rw [hpiece', hdrain, Drained.mk.injEq, (framing maxPayloadSize).rest_of_items_nil hitems]
        at hdrain'
      rw [← hdrain'.2.1, List.length_append] at hlength
      omega
    · intro hloses
      by_contra hitems
      exact hloses ⟨pre, chunk, post, _, _, rfl, by rwa [hpiece], malformed_of_front htail,
        (framing maxPayloadSize).length_rest_lt hmore hitems⟩

/-- Two cuts of one stream: the messages delivered before the first error and the presence of
an error are the same, and every complete valid frame before a malformed header is delivered,
exactly when neither cut has a chunk that brings both the end of a frame and the end of the
malformed header. -/
theorem delivered_cut_iff (chunks chunks' : List Bytes) (hcut : chunks.flatten = chunks'.flatten) :
    ((delivered maxPayloadSize chunks = delivered maxPayloadSize chunks' ∧
        raises maxPayloadSize chunks = raises maxPayloadSize chunks') ∧
      ∀ payloads tail, Frames maxPayloadSize tail chunks.flatten payloads →
        Malformed maxPayloadSize tail → delivered maxPayloadSize chunks = payloads) ↔
      ¬Loses maxPayloadSize chunks ∧ ¬Loses maxPayloadSize chunks' := by
  rw [← delivered_iff, ← delivered_iff, raises_eq, raises_eq, ← hcut]
  constructor
  · rintro ⟨⟨hsame, -⟩, hframes⟩
    have hitems : delivered maxPayloadSize chunks =
        ((framing maxPayloadSize).drain chunks.flatten).items := by
      cases herror : ((framing maxPayloadSize).drain chunks.flatten).error with
      | some e =>
        exact hframes _ _ (frames_drain _)
          (malformed_of_front ((framing maxPayloadSize).front_rest_error herror))
      | none =>
        rw [delivered_eq]
        have hall := (framing maxPayloadSize).feedAll_of_no_error chunks [] rfl
          (by rwa [List.nil_append])
        rw [List.nil_append] at hall
        exact hall.1
    exact ⟨hitems, hsame ▸ hitems⟩
  · rintro ⟨hitems, hitems'⟩
    refine ⟨⟨hitems.trans hitems'.symm, rfl⟩, fun payloads tail hframes hmalformed => ?_⟩
    obtain ⟨e, he⟩ := front_malformed hmalformed
    rw [hitems, drain_frames hframes he]

end

/-! ## 6. Two cuts of one stream -/

def oneFrame : Bytes := asciiBytes "Content-Length: 3" ++ headerSeparator ++ asciiBytes "one"

def badHeader : Bytes := asciiBytes "Content-Length: nope" ++ headerSeparator

theorem encode_one : encodeContentLengthFrame (asciiBytes "one") = some oneFrame := by
  have hdigits : natText 3 = ['3'] := by simp [natText]
  have hlength : (asciiBytes "one").length = 3 := rfl
  rw [encodeContentLengthFrame, hlength, decimalBytes, hdigits]
  rfl

theorem feedAll_encoded_bytewise :
    ∃ returned, (ContentLengthDecoder.fresh 4).feedAll (oneFrame.map ([·])) =
        (returned, ⟨[], 4⟩, none) ∧ returned.flatten = [asciiBytes "one"] := by
  have hencode : [asciiBytes "one"].mapM encodeContentLengthFrame = some [oneFrame] := by
    simp [encode_one]
  exact feedAll_encoded (by decide) hencode (by decide)

theorem delivered_cut_iff_bad :
    ((delivered 4 [oneFrame, badHeader] = delivered 4 [oneFrame ++ badHeader] ∧
        raises 4 [oneFrame, badHeader] = raises 4 [oneFrame ++ badHeader]) ∧
      ∀ payloads tail, Frames 4 tail [oneFrame, badHeader].flatten payloads →
        Malformed 4 tail → delivered 4 [oneFrame, badHeader] = payloads) ↔
      ¬Loses 4 [oneFrame, badHeader] ∧ ¬Loses 4 [oneFrame ++ badHeader] :=
  delivered_cut_iff _ _ (by decide)

/-- A frame and a malformed header in one read: the frame is lost, and it is not when they
come in two reads. -/
theorem frame_lost :
    ¬∀ (maxPayloadSize : Int) (chunks chunks' : List Bytes), chunks.flatten = chunks'.flatten →
      (delivered maxPayloadSize chunks = delivered maxPayloadSize chunks' ∧
          raises maxPayloadSize chunks = raises maxPayloadSize chunks') ∧
        ∀ payloads tail, Frames maxPayloadSize tail chunks.flatten payloads →
          Malformed maxPayloadSize tail → delivered maxPayloadSize chunks = payloads := by
  intro h
  have hsame := (h 4 [oneFrame, badHeader] [oneFrame ++ badHeader] (by decide)).1.1
  revert hsame
  decide

end EccFe.Runtime.Transport
