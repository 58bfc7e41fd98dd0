import HccastWired.Foundation.PyJsonCut
import HccastWired.Live.HandshakeParser

/-!
# The handshake parser and the ends of the reads

The parser finds the marker wherever the reads end. What it makes of the bytes after the
marker depends on the first read behind which the decoders do not call them unfinished.
-/

namespace HccastWired.Live.HandshakeParser

open Foundation PyJson WordSearch

/-- What an observer sees of the parser. -/
abbrev Verdict :=
  Except Fault (Option (List Nat × List Nat) × Option HandshakeError)

def result (x : Except Fault HandshakeParser) : Verdict :=
  x.map fun p => (p.outcome, p.error)

def pending : Verdict :=
  .ok (none, none)

def refused : Verdict :=
  .ok (none, some .json)

def accepted (product version : List Nat) : Verdict :=
  .ok (some (product, version), none)

def Verdict.settled : Verdict → Bool
  | .ok (none, none) => false
  | _ => true

/-- The bytes after the first marker. -/
def payloadOf (seen : Bytes) : Bytes :=
  match find HANDSHAKE_MARKER seen with
  | none => []
  | some n => seen.drop (n + HANDSHAKE_MARKER.length)

/-- What the decoders make of the bytes after the marker. -/
def judge (depth : Nat) (payload : Bytes) : Verdict :=
  match decodeUtf8 payload with
  | none => refused
  | some text =>
      let stripped := text.dropWhile Protocol.isSpace
      if stripped = [] then pending
      else match rawDecode depth stripped with
        | .error (.decode message left) =>
            if (Fault.decode message left).unfinished then pending else refused
        | .error e => .error e
        | .ok (value, _) =>
            match texts value with
            | none => refused
            | some outcome => .ok (some outcome, none)

/-- What has been read after every read. -/
def readings (seen : Bytes) : List Bytes → List Bytes
  | [] => []
  | chunk :: chunks => (seen ++ chunk) :: readings (seen ++ chunk) chunks

/-- The verdict behind the first read after which the bytes are not unfinished. -/
def firstSettled (depth : Nat) : List Bytes → Verdict
  | [] => pending
  | seen :: more =>
      let verdict := judge depth (payloadOf seen)
      if verdict.settled then verdict else firstSettled depth more

/-- The decoders make of the bytes behind that read what they make of all bytes. -/
def SameReading (depth : Nat) (chunks : List Bytes) : Prop :=
  firstSettled depth (readings [] chunks) = judge depth (payloadOf chunks.flatten)

section Boundaries

variable {depth limit : Nat} {p q : HandshakeParser} {seen chunk : Bytes} {chunks : List Bytes}

theorem marker_ne_nil : HANDSHAKE_MARKER ≠ [] := by
  decide

theorem not_settled {v : Verdict} : v.settled = false ↔ v = pending := by
  constructor
  · intro h
    match v, h with
    | .ok (none, none), _ => rfl
  · rintro rfl
    rfl

/-- The messages of a text that may go on are those of the decoder on a cut text. -/
theorem unfinished_iff (message : PyJson.Message) (left : Nat) :
    (Fault.decode message left).unfinished = true ↔
      ¬ (left ≠ 0 ∧ message.text ≠ "Unterminated string starting at") ∧
        message.text ∈ incompleteMessages := by
  cases message <;> simp [Fault.unfinished, PyJson.Message.text, incompleteMessages]

theorem parseIfComplete_result (ho : p.outcome = none) (he : p.error = none) :
    result (p.parseIfComplete depth) = judge depth p.payload ∧
      (judge depth p.payload = pending → p.parseIfComplete depth = .ok p) := by
  have hp : result (.ok p) = pending := by
    rw [result, Except.map, ho, he]
    rfl
  rw [judge, parseIfComplete]
  cases decodeUtf8 p.payload with
  | none => simp [result, Except.map, ho, refused, pending]
  | some text =>
    dsimp only
    split
    · exact ⟨hp, fun _ => rfl⟩
    · cases rawDecode depth (text.dropWhile Protocol.isSpace) with
      | ok decoded =>
        dsimp only
        cases texts decoded.1 with
        | none => simp [result, Except.map, ho, refused, pending]
        | some outcome => simp [result, Except.map, he, pending]
      | error e =>
        cases e with
        | decode message left =>
          dsimp only
          have hunfinished := unfinished_iff message left
          by_cases hpending : (Fault.decode message left).unfinished = true
          · obtain ⟨hleft, hmessage⟩ := hunfinished.mp hpending
            rw [if_pos hpending, if_neg hleft, if_neg (not_not.mpr hmessage)]
            exact ⟨hp, fun _ => rfl⟩
          · have herror : result (.ok { p with error := some .json }) = refused := by
              rw [result, Except.map, ho]
              rfl
            have hne : refused ≠ pending := by simp [refused, pending]
            rw [if_neg hpending]
            rw [hunfinished] at hpending
            split
            · exact ⟨herror, fun h => absurd h hne⟩
            · next hleft =>
              rw [if_pos fun hmessage => hpending ⟨hleft, hmessage⟩]
              exact ⟨herror, fun h => absurd h hne⟩
        | value => simp [result, Except.map, pending]
        | recursion => simp [result, Except.map, pending]

/-- The parser after bytes that leave it undecided. -/
structure Waiting (limit : Nat) (p : HandshakeParser) (seen : Bytes) : Prop where
  limit_eq : p.limit = limit
  undecided : p.outcome = none ∧ p.error = none
  payload_eq : p.payload = payloadOf seen
  marker : if p.markerSeen = true then (find HANDSHAKE_MARKER seen).isSome
    else find HANDSHAKE_MARKER seen = none ∧ p.before = kept HANDSHAKE_MARKER seen ∧
      p.preTotal = seen.length

theorem Waiting.start (limit : Nat) : Waiting limit { limit } [] where
  limit_eq := rfl
  undecided := ⟨rfl, rfl⟩
  payload_eq := rfl
  marker := ⟨rfl, rfl, rfl⟩

theorem length_payloadOf (seen : Bytes) : (payloadOf seen).length ≤ seen.length := by
  rw [payloadOf]
  split
  · exact Nat.zero_le _
  · rw [List.length_drop]
    exact Nat.sub_le _ _

theorem payloadOf_append (h : (find HANDSHAKE_MARKER seen).isSome) (more : Bytes) :
    payloadOf (seen ++ more) = payloadOf seen ++ more := by
  obtain ⟨n, hn⟩ := Option.isSome_iff_exists.mp h
  rw [payloadOf, payloadOf, find_append hn, hn]
  exact List.drop_append_of_le_length (end_le_of_find hn)

/-- Bytes after the marker, within the limit. -/
theorem extend_result (hp : p.limit = limit) (hu : p.outcome = none ∧ p.error = none)
    (hmarker : p.markerSeen = true) (hfound : (find HANDSHAKE_MARKER seen).isSome)
    (hpayload : p.payload ++ chunk = payloadOf seen) (hlimit : seen.length ≤ limit) :
    result (p.extend depth chunk) = judge depth (payloadOf seen) ∧
      (judge depth (payloadOf seen) = pending →
        ∃ q, p.extend depth chunk = .ok q ∧ Waiting limit q seen) := by
  have hlength : p.payload.length + chunk.length ≤ p.limit := by
    rw [← List.length_append, hpayload, hp]
    exact (length_payloadOf seen).trans hlimit
  have htake : chunk.take (p.limit - p.payload.length + 1) = chunk :=
    List.take_of_length_le (by omega)
  have hextend : p.extend depth chunk =
      parseIfComplete depth { p with payload := payloadOf seen } := by
    rw [extend, htake, hpayload]
    exact if_neg (by omega)
  rw [hextend]
  obtain ⟨hresult, hpending⟩ :=
    @parseIfComplete_result depth { p with payload := payloadOf seen } hu.1 hu.2
  refine ⟨hresult, ?_⟩
  intro hjudge
  exact ⟨_, hpending hjudge, hp, hu, rfl, by rwa [if_pos hmarker]⟩

/-- A read leaves what the decoders make of all bytes so far. -/
theorem feedStdout_waiting (h : Waiting limit p seen) (hlimit : (seen ++ chunk).length ≤ limit) :
    result (p.feedStdout depth chunk) = judge depth (payloadOf (seen ++ chunk)) ∧
      (judge depth (payloadOf (seen ++ chunk)) = pending →
        ∃ q, p.feedStdout depth chunk = .ok q ∧ Waiting limit q (seen ++ chunk)) := by
  have hmarker := h.marker
  have hopen : ¬ (p.outcome.isSome ∨ p.error.isSome) := by
    simp [h.undecided.1, h.undecided.2]
  rw [feedStdout, if_neg hopen]
  split at hmarker
  · next hseen =>
    rw [if_pos hseen]
    have hfound : (find HANDSHAKE_MARKER (seen ++ chunk)).isSome := by
      obtain ⟨n, hn⟩ := Option.isSome_iff_exists.mp hmarker
      rw [find_append hn]
      rfl
    apply extend_result h.limit_eq h.undecided hseen hfound _ hlimit
    rw [h.payload_eq, payloadOf_append hmarker]
  · next hunseen =>
    obtain ⟨hnone, hbefore, htotal⟩ := hmarker
    have hfind := find_kept marker_ne_nil hnone chunk
    have hle := overlap_le HANDSHAKE_MARKER seen
    have hstart : p.preTotal - p.before.length = seen.length - overlap HANDSHAKE_MARKER seen := by
      rw [hbefore, htotal, length_kept]
    rw [if_neg hunseen, hbefore]
    dsimp only
    cases hcombined : find HANDSHAKE_MARKER (kept HANDSHAKE_MARKER seen ++ chunk) with
    | none =>
      rw [hcombined, Option.map_none] at hfind
      have hpayload : payloadOf (seen ++ chunk) = [] := by
        rw [payloadOf, hfind]
      have hempty : p.payload = [] := by
        rw [h.payload_eq, payloadOf, hnone]
      have hsmall : ¬ p.limit < p.preTotal + chunk.length -
          overlap HANDSHAKE_MARKER (kept HANDSHAKE_MARKER seen ++ chunk) := by
        rw [List.length_append] at hlimit
        rw [htotal, h.limit_eq]
        omega
      dsimp only
      rw [if_neg hsmall, hpayload]
      have hjudge : judge depth [] = pending := rfl
      rw [hjudge]
      constructor
      · rw [result, Except.map, h.undecided.1]
        rfl
      · intro _
        refine ⟨_, rfl, h.limit_eq, ⟨h.undecided.1, rfl⟩, ?_, ?_⟩
        · rw [hpayload]
          exact hempty
        · rw [if_neg hunseen]
          refine ⟨hfind, kept_kept marker_ne_nil seen chunk, ?_⟩
          rw [htotal, List.length_append]
    | some n =>
      rw [hcombined, Option.map_some] at hfind
      have hend := end_le_of_find hfind
      have hempty : p.payload = [] := by
        rw [h.payload_eq, payloadOf, hnone]
      have hpayload : p.payload ++ (p.before ++ chunk).drop (n + HANDSHAKE_MARKER.length) =
          payloadOf (seen ++ chunk) := by
        rw [hempty, List.nil_append, payloadOf, hfind, hbefore, kept,
          ← List.drop_append_of_le_length (Nat.sub_le _ _), List.drop_drop]
        congr 1
        omega
      dsimp only
      rw [← hbefore, hstart, if_neg]
      · apply @extend_result depth limit { p with before := [], markerSeen := true } _ _ h.limit_eq
          h.undecided rfl _ hpayload hlimit
        rw [hfind]
        rfl
      · rw [h.limit_eq]
        omega

theorem feedStdout_settled (h : p.outcome.isSome ∨ p.error.isSome) (chunk : Bytes) :
    p.feedStdout depth chunk = .ok p := by
  rw [feedStdout, if_pos h]

theorem feedAll_settled (h : p.outcome.isSome ∨ p.error.isSome) (chunks : List Bytes) :
    p.feedAll depth chunks = .ok p := by
  induction chunks with
  | nil => rfl
  | cons chunk chunks ih =>
    rw [feedAll, List.foldlM_cons, feedStdout_settled h]
    exact ih

/-- What the parser ends with. -/
theorem feedAll_waiting (h : Waiting limit p seen)
    (hlimit : (seen ++ chunks.flatten).length ≤ limit) :
    result (p.feedAll depth chunks) = firstSettled depth (readings seen chunks) := by
  induction chunks generalizing p seen with
  | nil =>
    change result (.ok p) = pending
    rw [result, Except.map, h.undecided.1, h.undecided.2]
    rfl
  | cons chunk chunks ih =>
    rw [List.flatten_cons, ← List.append_assoc] at hlimit
    have hshort : (seen ++ chunk).length ≤ limit := by
      rw [List.length_append] at hlimit
      omega
    obtain ⟨hresult, hpending⟩ := @feedStdout_waiting depth limit p seen chunk h hshort
    rw [feedAll, List.foldlM_cons, readings, firstSettled]
    split
    · next hsettled =>
      -- A settled parser reads no more, and a fault ends the reads.
      cases hfeed : p.feedStdout depth chunk with
      | error e =>
        rw [hfeed] at hresult
        exact hresult
      | ok q =>
        rw [hfeed] at hresult
        have hq : q.outcome.isSome ∨ q.error.isSome := by
          rw [← hresult] at hsettled
          by_contra hopen
          simp only [not_or, Bool.not_eq_true, Option.isSome_eq_false_iff, Option.isNone_iff_eq_none]
            at hopen
          rw [result, Except.map, hopen.1, hopen.2] at hsettled
          cases hsettled
        have hrest := @feedAll_settled depth q hq chunks
        rw [feedAll] at hrest
        rw [← hresult]
        exact congrArg result hrest
    · next hopen =>
      obtain ⟨q, hfeed, hq⟩ := hpending (not_settled.mp (Bool.not_eq_true _ ▸ hopen))
      rw [hfeed]
      exact ih hq hlimit

theorem feedAll_whole (hlimit : seen.length ≤ limit) :
    result (feedAll depth { limit } [seen]) = judge depth (payloadOf seen) := by
  have hrun := @feedAll_waiting depth limit _ [] [seen] (Waiting.start limit)
    (by rwa [List.flatten_singleton])
  rw [hrun, readings, firstSettled, List.nil_append]
  split
  · rfl
  · next hopen => exact (not_settled.mp (Bool.not_eq_true _ ▸ hopen)).symm

end Boundaries

section Output

variable {depth limit n : Nat} {out : GadgetOutput} {seen : Bytes} {chunks : List Bytes}

theorem unmarked_marker :
    ∀ k < HANDSHAKE_MARKER.length, 0 < k → ¬ HANDSHAKE_MARKER.take k <:+ HANDSHAKE_MARKER := by
  decide +kernel

theorem codes_regular (text : String) : ∀ c ∈ codes text, c < 0x110000 ∧ isHigh c = false := by
  intro c hc
  refine ⟨?_, isHigh_codes text c hc⟩
  obtain ⟨char, -, rfl⟩ := List.mem_map.mp hc
  exact char_lt char

theorem merge_codes (text : String) : merge (codes text) = codes text :=
  (merge_eq_iff _).mpr (wellPaired_of_not_high (isHigh_codes text))

theorem deviceFields_regular (out : GadgetOutput) : ∀ field ∈ deviceFields out.info, Regular field := by
  have hword : ∀ n < 2 ^ 32, (Scalar.int n).Regular := by
    intro n hn
    have hlength := Nat.toDigits_length 10 n 10 (by decide) (hn.trans (by decide))
    exact hlength.trans (by decide)
  intro field hfield
  have hwords := out.words field hfield
  simp only [deviceFields, List.mem_cons, List.not_mem_nil, or_false] at hfield
  rcases hfield with rfl | rfl | rfl | rfl | rfl | rfl | rfl | rfl | rfl | rfl
  all_goals refine ⟨codes_regular _, ?_⟩
  all_goals first | exact codes_regular _ | exact hword _ (hwords _ rfl)

theorem texts_deviceFields (info : Protocol.DeviceInfo) :
    texts (.dict ((deviceFields info).map readField)) =
      some (codes info.product, codes info.version) := by
  have hkeys : ((deviceFields info).map readField).map Prod.fst =
      ["audio_enabled", "full_mode", "mirror_resolution", "mirror_type", "product", "url", "version",
        "version_raw", "vertical_auto_revolve", "vertical_mode"].map codes := by
    simp only [deviceFields, List.map_cons, List.map_nil, readField, merge_codes]
  have hnodup : (((deviceFields info).map readField).map Prod.fst).Nodup := by
    rw [hkeys]
    decide +kernel
  have hread : ∀ key text, (codes key, Scalar.str (codes text)) ∈ deviceFields info →
      lookup ((deviceFields info).map readField) (codes key) = some (.str (codes text)) := by
    intro key text hmem
    apply lookup_reverse_of_mem hnodup
    refine List.mem_map.mpr ⟨_, hmem, ?_⟩
    simp only [readField, Scalar.read, merge_codes]
  rw [texts, hread "product" info.product (by simp [deviceFields]),
    hread "version" info.version (by simp [deviceFields])]

/-- How many bytes come before the object. -/
def outset (out : GadgetOutput) : Nat :=
  out.status.length + HANDSHAKE_MARKER.length + 1

/-- A read that ends behind so many bytes cuts an escape of the object after its second
character, or ends right behind one. -/
def cutAt (out : GadgetOutput) (n : Nat) : Bool :=
  cutsEscape (dictPieces .indented (deviceFields out.info)) (n - outset out)

theorem toNat_ascii {c : Char} (h : c.toNat < 0x80) : (UInt8.ofNat c.toNat).toNat = c.toNat :=
  UInt8.toNat_ofNat_of_lt' (h.trans (by decide))

theorem chars_asciiBytes {text : List Char} (h : ∀ c ∈ text, c.toNat < 0x80) :
    (asciiBytes text).map (fun b => Char.ofNat b.toNat) = text := by
  rw [asciiBytes, List.map_map]
  conv_rhs => rw [← List.map_id text]
  apply List.map_congr_left
  intro c hc
  rw [Function.comp_apply, toNat_ascii (h c hc), Char.ofNat_toNat]
  rfl

theorem plain_asciiBytes {text : List Char} (h : ∀ c ∈ text, c.toNat < 0x80) :
    ∀ b ∈ asciiBytes text, b < 0x80 := by
  intro b hb
  obtain ⟨c, hc, rfl⟩ := List.mem_map.mp hb
  rw [UInt8.lt_iff_toNat_lt, toNat_ascii (h c hc)]
  exact h c hc

/-- The bytes behind the marker, as far as they have been read. -/
def tail (out : GadgetOutput) : Bytes :=
  10 :: (asciiBytes (deviceText out.info) ++ 10 :: out.after)

theorem payloadOf_take (out : GadgetOutput) (n : Nat) :
    payloadOf (out.bytes.take n) = (tail out).take (n + 1 - outset out) := by
  by_cases hn : out.status.length + HANDSHAKE_MARKER.length ≤ n
  · have htake : out.bytes.take n =
        out.status ++ (HANDSHAKE_MARKER ++ (tail out).take (n + 1 - outset out)) := by
      rw [GadgetOutput.bytes, List.take_append, List.take_of_length_le (by omega), List.take_append,
        List.take_of_length_le (by omega), tail, outset]
      congr 3
      omega
    rw [htake, payloadOf, find_put unmarked_marker out.unmarked, ← List.append_assoc]
    exact List.drop_left' (List.length_append)
  · have hbytes : find HANDSHAKE_MARKER out.bytes = some out.status.length :=
      find_put unmarked_marker out.unmarked _
    have hnone : find HANDSHAKE_MARKER (out.bytes.take n) = none := by
      cases hfind : find HANDSHAKE_MARKER (out.bytes.take n) with
      | none => rfl
      | some m =>
        exfalso
        have hend := end_le_of_find hfind
        have hwhole := find_append hfind (out.bytes.drop n)
        rw [List.take_append_drop, hbytes, Option.some.injEq] at hwhole
        rw [List.length_take] at hend
        omega
    have hzero : n + 1 - outset out = 0 := by
      rw [outset]
      omega
    rw [payloadOf, hnone, hzero, List.take_zero]

/-- The text behind the object. -/
def afterText (out : GadgetOutput) : List Char :=
  (10 :: out.after).map fun b => Char.ofNat b.toNat

theorem decode_tail (out : GadgetOutput) (k : Nat) : decodeUtf8 ((tail out).take k) =
    some (('\n' :: (deviceText out.info ++ afterText out)).take k) := by
  have htext : ∀ c ∈ deviceText out.info, c.toNat < 0x80 := ascii_dumpDict _ _
  have hplain : ∀ b ∈ tail out, b < 0x80 := by
    simp only [tail, List.forall_mem_cons, List.forall_mem_append]
    exact ⟨by decide, plain_asciiBytes htext, by decide, out.plain⟩
  rw [decodeUtf8_ascii fun b hb => hplain b (List.mem_of_mem_take hb), List.map_take, tail,
    List.map_cons, List.map_append, chars_asciiBytes htext]
  rfl

/-- The verdict behind so many bytes of the process's output. -/
theorem judge_take (out : GadgetOutput) (n : Nat) :
    judge (depth + 1) (payloadOf (out.bytes.take n)) =
      if n < outset out + (deviceText out.info).length then
        if cutAt out n then refused else pending
      else accepted (codes out.info.product) (codes out.info.version) := by
  obtain ⟨body, hbody⟩ : ∃ body, deviceText out.info = '{' :: body := ⟨_, rfl⟩
  have hne : deviceFields out.info ≠ [] := List.cons_ne_nil _ _
  have hregular := deviceFields_regular out
  have hstart : 0 < outset out := Nat.succ_pos _
  rw [payloadOf_take, judge, decode_tail]
  dsimp only
  by_cases hempty : n ≤ outset out
  · -- At most the end of the marker's line has been read.
    have hcut : cutAt out n = false := by
      rw [cutAt, Nat.sub_eq_zero_of_le hempty, cutsEscape_zero]
    have hblank : (('\n' :: (deviceText out.info ++ afterText out)).take
        (n + 1 - outset out)).dropWhile Protocol.isSpace = [] := by
      obtain hzero | hone : n + 1 - outset out = 0 ∨ n + 1 - outset out = 1 := by omega
      · rw [hzero]
        rfl
      · rw [hone]
        rfl
    rw [if_pos hblank, if_pos, hcut]
    · rfl
    · rw [hbody, List.length_cons]
      omega
  · obtain ⟨k, rfl⟩ : ∃ k, n = outset out + (k + 1) := ⟨n - outset out - 1, by omega⟩
    have hread : outset out + (k + 1) + 1 - outset out = k + 1 + 1 := by omega
    have hstrip : (('\n' :: (deviceText out.info ++ afterText out)).take
        (k + 1 + 1)).dropWhile Protocol.isSpace =
        (deviceText out.info ++ afterText out).take (k + 1) := by
      rw [List.take_succ_cons, hbody]
      rfl
    have hsome : (deviceText out.info ++ afterText out).take (k + 1) ≠ [] := by
      rw [hbody]
      exact List.cons_ne_nil _ _
    rw [hread, hstrip, if_neg hsome, cutAt, Nat.add_sub_cancel_left]
    by_cases hshort : k + 1 < (deviceText out.info).length
    · obtain ⟨e, he, hfault⟩ := @stops_dict .indented depth (k + 1) _ hne hregular
        (Nat.succ_pos k) hshort
      rw [if_pos (Nat.add_lt_add_left hshort _), List.take_append_of_le_length hshort.le, deviceText,
        he]
      split at hfault
      · next hcut =>
        obtain ⟨left, rfl⟩ := hfault
        rw [if_pos hcut]
        rfl
      · next hcut =>
        rw [if_neg hcut]
        cases e with
        | decode message left => exact if_pos hfault
        | value => cases hfault
        | recursion => cases hfault
    · have hlong := Nat.le_of_not_lt hshort
      rw [if_neg (Nat.not_lt.mpr (Nat.add_le_add_left hlong _)), List.take_append,
        List.take_of_length_le hlong, deviceText, rawDecode_dumpDict hne fun field hfield => (hregular field hfield).fits]
      dsimp only
      rw [texts_deviceFields]
      rfl

theorem cutAt_end (hn : outset out + (deviceText out.info).length ≤ n) : cutAt out n = false := by
  apply cutsEscape_end (List.cons_ne_nil _ _)
  have hlength : (deviceText out.info).length ≤ n - outset out := by omega
  exact hlength

theorem length_bytes (out : GadgetOutput) :
    outset out + (deviceText out.info).length < out.bytes.length := by
  simp only [outset, GadgetOutput.bytes, asciiBytes, List.length_append, List.length_cons,
    List.length_map]
  omega

theorem prefix_of_mem_readings {s : Bytes} (h : s ∈ readings seen chunks) : seen <+: s := by
  induction chunks generalizing seen with
  | nil => cases h
  | cons chunk chunks ih =>
    rw [readings] at h
    have hseen : seen <+: seen ++ chunk := List.prefix_append _ _
    rcases List.mem_cons.mp h with rfl | h
    · exact hseen
    · exact hseen.trans (ih h)

/-- The process's output is accepted where no read has cut an escape. -/
theorem firstSettled_output (hbytes : seen ++ chunks.flatten = out.bytes)
    (hseen : seen.length < outset out + (deviceText out.info).length) :
    firstSettled (depth + 1) (readings seen chunks) =
        accepted (codes out.info.product) (codes out.info.version) ↔
      ∀ s ∈ readings seen chunks, cutAt out s.length = false := by
  induction chunks generalizing seen with
  | nil =>
    exfalso
    have hlength := length_bytes out
    rw [← hbytes, List.flatten_nil, List.append_nil] at hlength
    omega
  | cons chunk chunks ih =>
    rw [List.flatten_cons, ← List.append_assoc] at hbytes
    have htake : seen ++ chunk = out.bytes.take (seen ++ chunk).length := by
      rw [← hbytes, List.take_left]
    have hjudge := @judge_take depth out (seen ++ chunk).length
    rw [← htake] at hjudge
    rw [readings, firstSettled, List.forall_mem_cons, hjudge]
    by_cases hlt : (seen ++ chunk).length < outset out + (deviceText out.info).length
    · rw [if_pos hlt]
      cases hcut : cutAt out (seen ++ chunk).length with
      | true => simp [refused, accepted, Verdict.settled]
      | false =>
        simp only [Bool.false_eq_true, if_false, true_and]
        exact ih hbytes hlt
    · have hge := Nat.le_of_not_lt hlt
      rw [if_neg hlt]
      constructor
      · intro _
        refine ⟨cutAt_end hge, ?_⟩
        intro s hs
        exact cutAt_end (hge.trans (prefix_of_mem_readings hs).length_le)
      · intro _
        rfl

end Output

/-- The output for a product whose name is one accented letter. -/
def accented : GadgetOutput where
  status := ascii "Enumerating directly as Android Open Accessory 18d1:2d00...\n"
  info :=
    { mirrorType := 1, mirrorResolution := 2, audioEnabled := 1, product := "é", versionRaw := 7,
      version := "7", url := "", verticalMode := 0, verticalAutoRevolve := 0, fullMode := 1 }
  after := []
  unmarked := by decide +kernel
  words := by simp [deviceFields]
  plain := by simp

end HccastWired.Live.HandshakeParser
