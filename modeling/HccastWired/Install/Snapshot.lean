import HccastWired.Foundation.Json
import HccastWired.Foundation.Sha256

/-!
# File snapshots

The bytes and metadata of a file as the journal records them, and the checks
that a recorded snapshot has to pass.
-/

namespace HccastWired.Install

open Foundation

def maxFileBytes : Nat := 128 * 1024

def maxJournalBytes : Nat := 2 * 1024 * 1024

/-- The production process is root, and so are its files. -/
def processUid : Int := 0

def processGid : Int := 0

/-- A failed transaction; a conflict names the files or targets that differ. -/
inductive TransactionError
  | error (message : String)
  | conflict (targets : List String)
deriving DecidableEq

structure FileIdentity where
  sha256 : String
  mode : Int
  uid : Int
  gid : Int
deriving DecidableEq

structure Snapshot where
  data : String
  mode : Int
  uid : Int
  gid : Int
  sha256 : String
deriving DecidableEq

def validInteger (value : Int) (maximum : Int) : Bool :=
  0 ≤ value && value ≤ maximum

def maxGid : Int := 2 ^ 32 - 2

/-- Permission bits only, and not writable by the group or by others. -/
def validMode (value : Int) : Bool :=
  validInteger value 0o777 && value.toNat &&& 0o022 = 0

def hash (digest : String) : Bool :=
  digest.toList.length = 64 && digest.toList.all fun c => c ∈ Sha256.hexDigits

def snapshot (data : Bytes) (mode uid gid : Int) : Snapshot :=
  ⟨String.ofList (Base64.encode data), mode, uid, gid, Sha256.hexdigest data⟩

def Snapshot.identity (s : Snapshot) : FileIdentity :=
  ⟨s.sha256, s.mode, s.uid, s.gid⟩

def Snapshot.bytes (s : Snapshot) : Option Bytes :=
  Base64.decode s.data.toList

section Json

/-- The dict, with its keys sorted. -/
def FileIdentity.toJson (i : FileIdentity) : Json :=
  .obj [("gid", .int i.gid), ("mode", .int i.mode), ("sha256", .str i.sha256), ("uid", .int i.uid)]

def Snapshot.toJson (s : Snapshot) : Json :=
  .obj [("data", .str s.data), ("gid", .int s.gid), ("mode", .int s.mode),
    ("sha256", .str s.sha256), ("uid", .int s.uid)]

/-- The fields of a dict that has exactly these keys. -/
def fieldsOf (keys : List String) : Json → Option (List (String × Json))
  | .obj fields =>
      if (fields.map Prod.fst).all (· ∈ keys) ∧ keys.all (· ∈ fields.map Prod.fst) then some fields
      else none
  | _ => none

def identityFields (fields : List (String × Json)) : Json :=
  .obj (["gid", "mode", "sha256", "uid"].filterMap fun k => (fields.lookup k).map (Prod.mk k))

def validateIdentity (j : Json) : Except TransactionError FileIdentity :=
  match fieldsOf ["sha256", "mode", "uid", "gid"] j with
  | none => .error (.error "Invalid file identity")
  | some fields =>
      match fields.lookup "sha256", fields.lookup "mode", fields.lookup "uid",
        fields.lookup "gid" with
      | some (.str sha256), some (.int m), some (.int u), some (.int g) =>
          if hash sha256 && validMode m && u = processUid && validInteger g maxGid then .ok ⟨sha256, m, u, g⟩
          else .error (.error "Invalid file identity")
      | _, _, _, _ => .error (.error "Invalid file identity")

/-- The recorded bytes are canonical Base64 within the bound and match the hash. -/
def validateData (data : Json) (sha256 : String) : Option String :=
  match data with
  | .str text =>
      if 4 * ((maxFileBytes + 2) / 3) < text.toList.length then none
      else (Base64.decode text.toList).bind fun bytes =>
        if maxFileBytes < bytes.length ∨ String.ofList (Base64.encode bytes) ≠ text ∨
          Sha256.hexdigest bytes ≠ sha256 then none
        else some text
  | _ => none

def validateSnapshot (j : Json) : Except TransactionError (Option Snapshot) :=
  match j with
  | .null => .ok none
  | j =>
      match fieldsOf ["data", "mode", "uid", "gid", "sha256"] j with
      | none => .error (.error "Invalid journal file snapshot")
      | some fields =>
          match validateIdentity (identityFields fields) with
          | .error e => .error e
          | .ok i =>
              match (fields.lookup "data").bind fun data => validateData data i.sha256 with
              | none => .error (.error "Invalid journal snapshot bytes or hash")
              | some data => .ok (some ⟨data, i.mode, i.uid, i.gid, i.sha256⟩)

end Json

section Valid

def FileIdentity.Valid (i : FileIdentity) : Prop :=
  hash i.sha256 = true ∧ validMode i.mode = true ∧ i.uid = processUid ∧ validInteger i.gid maxGid = true

/-- What a file within the bound looks like, owned by root and writable by nobody else. -/
structure Snapshot.Valid (s : Snapshot) : Prop where
  bytes : ∃ data, data.length ≤ maxFileBytes ∧ s = snapshot data s.mode s.uid s.gid
  mode : validMode s.mode = true
  owner : s.uid = processUid
  group : validInteger s.gid maxGid = true

variable {s : Snapshot} {i : FileIdentity}

theorem hash_hexdigest (data : Bytes) : hash (Sha256.hexdigest data) = true := by
  simp only [hash, Sha256.hexdigest_length, decide_true, Bool.true_and, List.all_eq_true,
    decide_eq_true_eq]
  exact Sha256.hexdigest_mem data

@[simp] theorem snapshot_bytes (data : Bytes) (m u g : Int) :
    (snapshot data m u g).bytes = some data := by
  simp [snapshot, Snapshot.bytes, Base64.decode_encoded]

theorem Snapshot.Valid.identity (h : s.Valid) : s.identity.Valid := by
  obtain ⟨data, -, hs⟩ := h.bytes
  refine ⟨?_, h.mode, h.owner, h.group⟩
  rw [hs]
  exact hash_hexdigest data

theorem validateIdentity_toJson (h : i.Valid) : validateIdentity i.toJson = .ok i := by
  obtain ⟨sha256, m, u, g⟩ := i
  obtain ⟨hhash, hmode, rfl, hgroup⟩ := h
  simp [validateIdentity, FileIdentity.toJson, fieldsOf, List.lookup, hhash, hmode, hgroup]

theorem validateData_encode {data : Bytes} (h : data.length ≤ maxFileBytes) :
    validateData (.str (String.ofList (Base64.encode data))) (Sha256.hexdigest data) =
      some (String.ofList (Base64.encode data)) := by
  have hlength : ¬ 4 * ((maxFileBytes + 2) / 3) < (Base64.encode data).length := by
    rw [Base64.encode_length]
    omega
  simp [validateData, hlength, Base64.decode_encoded, Nat.not_lt.mpr h]

theorem validateSnapshot_toJson (h : s.Valid) : validateSnapshot s.toJson = .ok (some s) := by
  obtain ⟨data, hlength, hs⟩ := h.bytes
  have hfields : identityFields [("data", .str s.data), ("gid", .int s.gid),
      ("mode", .int s.mode), ("sha256", .str s.sha256), ("uid", .int s.uid)] =
        s.identity.toJson := by
    simp [identityFields, List.lookup, FileIdentity.toJson, Snapshot.identity]
  have hidentity := validateIdentity_toJson h.identity
  have hdata : validateData (.str s.data) s.identity.sha256 = some s.data := by
    rw [hs]
    exact validateData_encode hlength
  simp [validateSnapshot, Snapshot.toJson, fieldsOf, List.lookup, hfields, hidentity, hdata]
  rfl

end Valid

end HccastWired.Install
