import HccastWired.Foundation.Generator
import HccastWired.Protocol.Frame

/-!
# Annex-B streams

`iter_nals` cuts a stream that arrives in reads of any length into the units
between its start codes, and `iter_access_units` puts the units between two
access unit delimiters together. The start codes stay in the units.
-/

namespace HccastWired.Video

open Foundation

/-- `AnnexBError`, or a plain `ValueError`. -/
inductive AnnexBError where
  | annexB (message : String)
  | value (message : String)
  deriving DecidableEq, Repr

/-- The length of the start code at the head of the data; the longer one first. -/
def startCodeAt (data : Protocol.Bytes) : Option Nat :=
  if data.take 4 = [0, 0, 0, 1] then some 4
  else if data.take 3 = [0, 0, 1] then some 3
  else none

/-- The loop of `_find_start_code`, with the bytes from index `i` on. -/
def findFrom (i : Nat) : Protocol.Bytes → Option (Nat × Nat)
  | [] => none
  | byte :: rest =>
      match startCodeAt (byte :: rest) with
      | some length => some (i, length)
      | none => findFrom (i + 1) rest

/-- `_find_start_code`: the index and the length. -/
def findStartCode (data : Protocol.Bytes) (start : Nat) : Option (Nat × Nat) :=
  findFrom start (data.drop start)

def startCodeLength (nal : Protocol.Bytes) : Except AnnexBError Nat :=
  match startCodeAt nal with
  | some length => .ok length
  | none => .error (.annexB "NAL unit does not begin with an Annex-B start code")

def nalUnitType (nal : Protocol.Bytes) : Except AnnexBError UInt8 := do
  let offset ← startCodeLength nal
  match nal[offset]? with
  | none => throw (.annexB "empty NAL unit")
  | some byte => return byte &&& 0x1F

theorem findFrom_some {i : Nat} {data : Protocol.Bytes} {found length : Nat}
    (h : findFrom i data = some (found, length)) :
    ∃ before after, data = before ++ after ∧ found = i + before.length ∧
      startCodeAt after = some length ∧
      ∀ p, p <:+ before → p ≠ [] → startCodeAt (p ++ after) = none := by
  induction data generalizing i with
  | nil => cases h
  | cons byte rest ih =>
      rw [findFrom] at h
      split at h
      · next n hcode =>
        obtain ⟨rfl, rfl⟩ := Prod.mk.inj (Option.some.inj h)
        refine ⟨[], byte :: rest, rfl, rfl, hcode, ?_⟩
        intro p hp hne
        exact absurd (List.suffix_nil.mp hp) hne
      · next hcode =>
        obtain ⟨before, after, rfl, rfl, hafter, hnone⟩ := ih h
        refine ⟨byte :: before, after, rfl, ?_, hafter, ?_⟩
        · rw [List.length_cons]
          omega
        · intro p hp hne
          obtain rfl | hp := List.suffix_cons_iff.mp hp
          · exact hcode
          · exact hnone p hp hne

theorem startCodeAt_length {data : Protocol.Bytes} {length : Nat} (h : startCodeAt data = some length) :
    3 ≤ length ∧ length ≤ data.length := by
  unfold startCodeAt at h
  split at h
  · next h4 =>
    obtain rfl := Option.some.inj h
    have := congrArg List.length h4
    simp only [List.length_take, List.length_cons, List.length_nil] at this
    omega
  · split at h
    · next h3 =>
      obtain rfl := Option.some.inj h
      have := congrArg List.length h3
      simp only [List.length_take, List.length_cons, List.length_nil] at this
      omega
    · cases h

/-- A start code that is found lies behind the bytes that were skipped. -/
theorem findStartCode_bounds {data : Protocol.Bytes} {start found length : Nat}
    (h : findStartCode data start = some (found, length)) :
    start ≤ found ∧ 3 ≤ length ∧ found + 3 ≤ data.length := by
  obtain ⟨before, after, hdata, rfl, hcode, -⟩ := findFrom_some h
  obtain ⟨hmin, hle⟩ := startCodeAt_length hcode
  have hlen := congrArg List.length hdata
  rw [List.length_drop, List.length_append] at hlen
  omega

/-- The inner `while` of `iter_nals`. It yields the units that are complete, and
returns the buffer with the last one. -/
def splitLoop (buffer : Protocol.Bytes) : Generator Protocol.Bytes AnnexBError Protocol.Bytes :=
  match _h0 : findStartCode buffer 0 with
  | some (0, length) =>
      match _h : findStartCode buffer length with
      | none => return buffer
      | some (following, _) =>
          if length < following then do
            Generator.yield (buffer.take following)
            splitLoop (buffer.drop following)
          else splitLoop (buffer.drop following)
  | _ => Generator.raise (.annexB "internal parser lost NAL synchronization")
termination_by buffer.length
decreasing_by
  all_goals
    obtain ⟨-, hlength, -⟩ := findStartCode_bounds _h0
    obtain ⟨hlow, -, hhigh⟩ := findStartCode_bounds _h
    simp only [List.length_drop]
    omega

/-- The rest of a pass of the outer `while` of `iter_nals`, once a start code has been
found. It goes on with a buffer, or returns at the end of the stream. -/
def splitPass (eof : Bool) (buffer : Protocol.Bytes) :
    Generator Protocol.Bytes AnnexBError (Option (Protocol.Bytes × Bool)) := do
  let buffer ← splitLoop buffer
  if eof then
    match findStartCode buffer 0 with
    | some (0, length) =>
        if length < buffer.length then
          Generator.yield buffer
        return none
    | _ => return none
  else return some (buffer, true)

/-- One pass of the outer `while` of `iter_nals`, with what the read has returned. It
goes on with a buffer and a flag, or returns. -/
def readPass (buffer : Protocol.Bytes) (firstFound : Bool) (chunk : Protocol.Bytes) :
    Generator Protocol.Bytes AnnexBError (Option (Protocol.Bytes × Bool)) :=
  let eof := chunk.isEmpty
  let buffer := buffer ++ chunk
  if firstFound then splitPass eof buffer
  else
    match findStartCode buffer 0 with
    | none =>
        if eof then
          if buffer = [] then return none
          else Generator.raise (.annexB "no Annex-B start code found")
        else return some (buffer.drop (buffer.length - 4), false)
    | some (first, _) => splitPass eof (buffer.drop first)

/-- `iter_nals` on a stream whose reads return these bytes, and then nothing. -/
def iterNals (buffer : Protocol.Bytes) (firstFound : Bool) :
    List Protocol.Bytes → Generator Protocol.Bytes AnnexBError Unit
  | [] => do
      let _ ← readPass buffer firstFound []
      return ()
  | chunk :: reads => do
      match ← readPass buffer firstFound chunk with
      | none => return ()
      | some (buffer, firstFound) => iterNals buffer firstFound reads

/-- The loop of `iter_access_units`, which returns what is pending. -/
def groupLoop (pending : List Protocol.Bytes) (sawAud : Bool) :
    List Protocol.Bytes → Generator Protocol.Bytes AnnexBError (List Protocol.Bytes)
  | [] => return pending
  | nal :: nals =>
      match nalUnitType nal with
      | .error e => Generator.raise e
      | .ok nalType =>
          if nalType = 9 then do
            if pending ≠ [] then
              Generator.yield pending.flatten
            groupLoop [nal] true nals
          else if sawAud then groupLoop (pending ++ [nal]) true nals
          else do
            Generator.yield nal
            groupLoop pending false nals

def iterAccessUnits (nals : Generator Protocol.Bytes AnnexBError Unit) :
    Generator Protocol.Bytes AnnexBError Unit := do
  let pending ← groupLoop [] false nals.items
  match nals.ending with
  | .error e => Generator.raise e
  | .ok () =>
      if pending ≠ [] then
        Generator.yield pending.flatten

/-- `iter_h264_packets_from_stream`. -/
def packetsFromStream (packetization : String) (reads : List Protocol.Bytes) :
    Generator Protocol.Bytes AnnexBError Unit :=
  if packetization = "nal" then iterNals [] false reads
  else if packetization = "access-unit" then iterAccessUnits (iterNals [] false reads)
  else Generator.raise (.value "packetization must be 'nal' or 'access-unit'")

end HccastWired.Video
