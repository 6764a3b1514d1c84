import Mtransaction.Lib.Json
import Mtransaction.Server.SignatureChecker

/-!
# What the signature checker logs of a status

The payload is put together from texts, some of them encoded already.  It is meant to be read by
machines, so it is read back here.
-/

namespace Mtransaction

open Json

/-- The whole of a status; an error is given by its text. -/
structure KnownStatus extends TransactionStatus where
  slot : UInt64
  confirmations : Option ℕ
  status : Except String Unit

/-- `serde_json::to_string`, of which the code relies on this: strings and lists of strings become
their JSON texts. -/
structure JsonEncoder (serde : Value → Except String String) : Prop where
  string : ∀ s, ∃ text, serde (.string s) = .ok text ∧ IsStringLiteral s text.toList
  array : ∀ items : List String, ∃ text, serde (.array (items.map .string)) = .ok text ∧
    IsStringArray items text.toList

section Format

variable (serde : Value → Except String String)

/-- `json_str!` -/
def jsonStr (v : Value) : String :=
  match serde v with
  | .ok text => text
  | .error _ => "null"

def formatConfirmations (confirmations : Option ℕ) : String :=
  match confirmations with
  | some value => toString value
  | none => "null"

def formatOutcome (status : Except String Unit) : String :=
  match status with
  | .ok () => "ok"
  | .error err => jsonStr serde (.string err)

def formatStatus (status : KnownStatus) : String :=
  "\"slot\":" ++ toString status.slot.toNat ++
    ",\"confirmations\":" ++ formatConfirmations status.confirmations ++
    ",\"status\":\"" ++ formatOutcome serde status.status ++ "\""

/-- The text behind `new signature status # `. -/
def statusPayload (tpuOrder : HashOrder String) (status : KnownStatus) (record : SignatureRecord) :
    String :=
  "\x7b" ++ formatStatus serde status ++ ",\"rtime\":" ++ toString record.rtime.toNat ++
    ",\"clients\":" ++ jsonStr serde (.array (record.consumers.map .string)) ++
    ",\"tpu_ips\":" ++ jsonStr serde (.array ((record.iterTpuIps tpuOrder).map .string)) ++ "\x7d"

end Format

/-- The text of the outcome: of an error, what it displays. -/
def KnownStatus.outcome (status : KnownStatus) : String :=
  match status.status with
  | .ok () => "ok"
  | .error err => err

/-- The field of an object that has the confirmations. -/
def IsConfirmations : Option ℕ → Value → Prop
  | none, v => v = .null
  | some n, v => v.asNat = some n

/-- The text is a JSON object, and its fields have what the status and the record had. -/
def ReadsBack (text : String) (status : KnownStatus) (record : SignatureRecord) : Prop :=
  ∃ members, Denotes text.toList (.object members) ∧
    (members.lookup "slot").bind Value.asNat = some status.slot.toNat ∧
    (∃ v, members.lookup "confirmations" = some v ∧ IsConfirmations status.confirmations v) ∧
    members.lookup "status" = some (.string status.outcome) ∧
    (members.lookup "rtime").bind Value.asNat = some record.rtime.toNat ∧
    members.lookup "clients" = some (.array (record.consumers.map .string)) ∧
    ∃ ips : List String, members.lookup "tpu_ips" = some (.array (ips.map .string)) ∧ ips.Nodup ∧
      ips.toFinset = record.tpuIps

/-! ## The payload as a list of members -/

section Payload

variable {serde : Value → Except String String} (tpuOrder : HashOrder String)
  (status : KnownStatus) (record : SignatureRecord)

/-- The members behind the status. -/
def recordMembers (clients tpuIps : List Char) (rtime : ℕ) : List Char :=
  memberText "rtime".toList (Nat.toDigits 10 rtime) ++ ',' ::
    (memberText "clients".toList clients ++ ',' ::
      (memberText "tpu_ips".toList tpuIps ++ ['\x7d']))

theorem toList_statusPayload : (statusPayload serde tpuOrder status record).toList =
    '\x7b' :: (memberText "slot".toList (Nat.toDigits 10 status.slot.toNat) ++ ',' ::
      (memberText "confirmations".toList (formatConfirmations status.confirmations).toList ++ ',' ::
        (memberText "status".toList ('"' :: ((formatOutcome serde status.status).toList ++ ['"'])) ++
          ',' :: recordMembers (jsonStr serde (.array (record.consumers.map .string))).toList
            (jsonStr serde (.array ((record.iterTpuIps tpuOrder).map .string))).toList
            record.rtime.toNat))) := by
  simp only [statusPayload, formatStatus, recordMembers, memberText, String.toList_append,
    Decimal.toList_toString, List.append_assoc, List.cons_append]
  rfl

/-! ## Reading it back -/

variable {tpuOrder status record} {n : ℕ} {rest : List Char}

theorem unescaped_keys : Unescaped "slot".toList ∧ Unescaped "confirmations".toList ∧
    Unescaped "status".toList ∧ Unescaped "rtime".toList ∧ Unescaped "clients".toList ∧
      Unescaped "tpu_ips".toList := by
  decide

theorem asNat_toDigits (n : ℕ) : (Value.number (Nat.toDigits 10 n)).asNat = some n := by
  have hall : (Nat.toDigits 10 n).all Char.isDigit := List.all_eq_true.mpr fun c hc =>
    Nat.isDigit_of_mem_toDigits (by decide) (by decide) hc
  rw [Value.asNat, if_pos hall, Nat.ofDigitChars_ten_toDigits]

theorem parseValue_formatConfirmations (confirmations : Option ℕ) : ∃ v,
    IsConfirmations confirmations v ∧ ∀ k rest, EndsValue rest →
      parseValue (k + 1) ((formatConfirmations confirmations).toList ++ rest) = some (v, rest) := by
  cases confirmations with
  | none => exact ⟨.null, rfl, fun k rest _ => parseValue_null k⟩
  | some value =>
    refine ⟨.number (Nat.toDigits 10 value), asNat_toDigits value, fun k rest hrest => ?_⟩
    rw [formatConfirmations, Decimal.toList_toString]
    exact parseValue_toDigits k value hrest

theorem endsValue_comma : EndsValue (',' :: rest) := ⟨_, _, rfl, .inl rfl⟩

theorem isStringArray_jsonStr (hserde : JsonEncoder serde) (items : List String) :
    IsStringArray items (jsonStr serde (.array (items.map .string))).toList := by
  obtain ⟨text, htext, harray⟩ := hserde.array items
  rwa [jsonStr, htext]

theorem parseMembers_record (hserde : JsonEncoder serde) (clients tpuIps : List String)
    (hclients : clients.length < n) (hips : tpuIps.length < n) (rtime : ℕ) :
    parseMembers (n + 4) (recordMembers (jsonStr serde (.array (clients.map .string))).toList
      (jsonStr serde (.array (tpuIps.map .string))).toList rtime) =
      some ([("rtime", .number (Nat.toDigits 10 rtime)),
        ("clients", .array (clients.map .string)),
        ("tpu_ips", .array (tpuIps.map .string))], []) := by
  obtain ⟨-, -, -, hrtime, hclientsKey, hipsKey⟩ := unescaped_keys
  rw [recordMembers, parseMembers_comma hrtime (parseValue_toDigits _ rtime endsValue_comma),
    parseMembers_comma hclientsKey
      (parseValue_stringArray (isStringArray_jsonStr hserde clients) (by omega)),
    parseMembers_close hipsKey
      (parseValue_stringArray (isStringArray_jsonStr hserde tpuIps) hips)]
  simp

theorem iterTpuIps_perm (tpuOrder : HashOrder String) (record : SignatureRecord) :
    (record.iterTpuIps tpuOrder).Nodup ∧ (record.iterTpuIps tpuOrder).toFinset = record.tpuIps := by
  have hperm : (record.iterTpuIps tpuOrder).Perm (record.tpuIps.sort (· ≤ ·)) := tpuOrder.perm _
  refine ⟨hperm.nodup_iff.mpr (Finset.sort_nodup _ _), ?_⟩
  rw [List.toFinset_eq_of_perm _ _ hperm, Finset.sort_toFinset]

theorem readsBack_of_ok (hserde : JsonEncoder serde) (hstatus : status.status = .ok ()) :
    ReadsBack (statusPayload serde tpuOrder status record) status record := by
  obtain ⟨v, hv, hconfirmations⟩ := parseValue_formatConfirmations status.confirmations
  obtain ⟨hslotKey, hconfirmationsKey, hstatusKey, -⟩ := unescaped_keys
  -- `ok` in quotes
  have hok : IsStringLiteral "ok" ('"' :: ((formatOutcome serde status.status).toList ++ ['"'])) := by
    have hkey : Unescaped "ok".toList := by decide
    rw [hstatus]
    exact ⟨_, rfl, parseChars_unescaped hkey⟩
  let n := record.consumers.length + (record.iterTpuIps tpuOrder).length + 1
  have hrecord := parseMembers_record (n := n) hserde record.consumers
    (record.iterTpuIps tpuOrder) (by omega) (by omega) record.rtime.toNat
  refine ⟨("slot", .number (Nat.toDigits 10 status.slot.toNat)) :: ("confirmations", v) ::
    ("status", .string "ok") :: [("rtime", .number (Nat.toDigits 10 record.rtime.toNat)),
      ("clients", .array (record.consumers.map .string)),
      ("tpu_ips", .array ((record.iterTpuIps tpuOrder).map .string))], ⟨n + 8, [], ?_, rfl⟩,
    asNat_toDigits status.slot.toNat, ⟨v, rfl, hv⟩, ?_, asNat_toDigits record.rtime.toNat, rfl,
    record.iterTpuIps tpuOrder, rfl, iterTpuIps_perm tpuOrder record⟩
  · rw [toList_statusPayload, parseValue_object,
      parseMembers_comma hslotKey (parseValue_toDigits _ _ endsValue_comma),
      parseMembers_comma hconfirmationsKey (hconfirmations _ _ endsValue_comma),
      parseMembers_comma hstatusKey (parseValue_stringLiteral _ hok), hrecord]
    rfl
  · rw [KnownStatus.outcome, hstatus]
    rfl

-- whatever the fuel, the members are not read to the end
theorem not_readsBack_of_error {err : String} (hserde : JsonEncoder serde)
    (hstatus : status.status = .error err) :
    ¬ ReadsBack (statusPayload serde tpuOrder status record) status record := by
  rintro ⟨members, ⟨n, rest, hparse, hrest⟩, -⟩
  obtain ⟨v, -, hconfirmations⟩ := parseValue_formatConfirmations status.confirmations
  obtain ⟨hslotKey, hconfirmationsKey, hstatusKey, -⟩ := unescaped_keys
  obtain ⟨text, htext, hliteral⟩ := hserde.string err
  have houtcome : formatOutcome serde status.status = text := by
    rw [hstatus, formatOutcome, jsonStr, htext]
  rw [toList_statusPayload, houtcome] at hparse
  cases n with
  | zero => simp [parseValue] at hparse
  | succ n =>
    rw [parseValue_object] at hparse
    obtain ⟨read, hread, heq⟩ := Option.map_eq_some_iff.mp hparse
    obtain ⟨m, read', hread', hrest'⟩ := exists_of_parseMembers_comma hslotKey
      (fun k => parseValue_toDigits k _ endsValue_comma) hread
    obtain ⟨m, read'', hread'', hrest''⟩ := exists_of_parseMembers_comma hconfirmationsKey
      (fun k => hconfirmations k _ endsValue_comma) hread'
    refine parseMembers_requoted hstatusKey hliteral hread'' ?_
    rw [hrest'', hrest', (Prod.mk.inj heq).2, hrest]

/-- The payload reads back exactly if the transaction did not fail: the text of an error is encoded
and then put in quotes once more. -/
theorem readsBack_iff (hserde : JsonEncoder serde) (tpuOrder : HashOrder String)
    (status : KnownStatus) (record : SignatureRecord) :
    ReadsBack (statusPayload serde tpuOrder status record) status record ↔
      status.status = .ok () := by
  constructor
  · intro h
    cases hstatus : status.status with
    | ok => rfl
    | error err => exact absurd h (not_readsBack_of_error hserde hstatus)
  · exact readsBack_of_ok hserde

end Payload

/-! ### An encoder -/

/-- The part of an encoder that is used: strings, and lists of them. -/
def encodeStrings : Value → Except String String
  | .string s => .ok (String.ofList (stringLiteral s))
  | .array items => .ok (String.ofList ('[' :: ([','].intercalate (items.map fun
      | .string s => stringLiteral s
      | _ => []) ++ [']'])))
  | _ => .error "unsupported"

theorem jsonEncoder_encodeStrings : JsonEncoder encodeStrings where
  string s := by
    refine ⟨_, rfl, ?_⟩
    rw [String.toList_ofList]
    exact isStringLiteral_stringLiteral s
  array items := by
    refine ⟨_, rfl, ?_⟩
    rw [String.toList_ofList, List.map_map]
    exact isStringArray_stringLiterals items

def loggedRecord : SignatureRecord :=
  ⟨0, 0, 1700000000000, 7, ⟨.replicate 64 0⟩, .forward, ["A", "B"], {"10.0.0.1"}, "partner"⟩

theorem iterTpuIps_loggedRecord : loggedRecord.iterTpuIps .stored = ["10.0.0.1"] := by
  simp [SignatureRecord.iterTpuIps, HashOrder.stored, loggedRecord]

theorem ok_readsBack :
    statusPayload encodeStrings .stored ⟨⟨none⟩, 5, some 1, .ok ()⟩ loggedRecord =
      "\x7b\"slot\":5,\"confirmations\":1,\"status\":\"ok\",\"rtime\":1700000000000," ++
        "\"clients\":[\"A\",\"B\"],\"tpu_ips\":[\"10.0.0.1\"]\x7d" ∧
    ReadsBack (statusPayload encodeStrings .stored ⟨⟨none⟩, 5, some 1, .ok ()⟩ loggedRecord)
      ⟨⟨none⟩, 5, some 1, .ok ()⟩ loggedRecord := by
  refine ⟨?_, (readsBack_iff jsonEncoder_encodeStrings .stored _ loggedRecord).mpr rfl⟩
  rw [statusPayload, iterTpuIps_loggedRecord]
  decide

/-- An error's text stands in two pairs of quotes. -/
theorem error_not_readsBack :
    statusPayload encodeStrings .stored
        ⟨⟨some "Account in use"⟩, 5, none, .error "Account in use"⟩ loggedRecord =
      "\x7b\"slot\":5,\"confirmations\":null,\"status\":\"\"Account in use\"\"," ++
        "\"rtime\":1700000000000,\"clients\":[\"A\",\"B\"],\"tpu_ips\":[\"10.0.0.1\"]\x7d" ∧
    ¬ ReadsBack (statusPayload encodeStrings .stored
        ⟨⟨some "Account in use"⟩, 5, none, .error "Account in use"⟩ loggedRecord)
      ⟨⟨some "Account in use"⟩, 5, none, .error "Account in use"⟩ loggedRecord := by
  refine ⟨?_, not_readsBack_of_error jsonEncoder_encodeStrings rfl⟩
  rw [statusPayload, iterTpuIps_loggedRecord]
  decide

end Mtransaction
