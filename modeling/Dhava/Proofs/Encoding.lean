import Dhava.Foundations.Attempt
import Dhava.Spec.Value

/-! What a value is after `json_dumps` and `json_loads`, and whether MessagePack takes it:
for every value `json_dumps` accepts by induction over the value, and for the plain ones,
which come back as they were. -/

namespace Dhava

open Foundations

section Sendable

variable (floatRepr : PyFloat → String)

/-- The key as `json_loads` returns it. -/
def PyKey.readBack (key : PyKey) : Option Text := (key.name floatRepr).toOption.map Text.reread

/-- Every surrogate of the key belongs to a pair. -/
def PyKey.sendable : PyKey → Bool
  | .str s => s.isPaired
  | _ => true

namespace PyValue

mutual

/-- Integers in the range of MessagePack and strings whose surrogates belong to pairs, all
through, but for the entries of a dictionary that a later one is read back over. -/
def sendable : PyValue → Bool
  | .int n => fitsMsgpack n
  | .str s => s.isPaired
  | .list items | .set items => sendableItems items
  | .dict entries => sendableEntries entries
  | .enum value => sendable value
  | .object toDict => sendable toDict
  | _ => true

def sendableItems : List PyValue → Bool
  | [] => true
  | item :: rest => sendable item && sendableItems rest

def sendableEntries : List (PyKey × PyValue) → Bool
  | [] => true
  | (key, value) :: rest =>
    (rest.any (fun e => e.1.readBack floatRepr = key.readBack floatRepr) ||
      (key.sendable && sendable value)) && sendableEntries rest

end

end PyValue
end Sendable

namespace PyValue

theorem isJsonEntries_dictOf {entries : List (PyKey × PyValue)} (h : isJsonEntries entries = true) :
    isJsonEntries (dictOf entries) = true := by
  induction entries with
  | nil => rfl
  | cons e rest ih =>
    obtain ⟨key, value⟩ := e
    rw [isJsonEntries, Bool.and_eq_true] at h
    rw [dictOf]
    split_ifs
    · exact ih h.2
    · rw [isJsonEntries, h.1, ih h.2]
      rfl

mutual

theorem isJson_jsonLoads : ∀ document, isJson (jsonLoads document) = true
  | .null | .bool _ | .int _ | .float _ | .str _ => rfl
  | .arr items => isJson_loadsItems items
  | .obj entries => isJsonEntries_dictOf (isJson_loadsEntries entries)

theorem isJson_loadsItems : ∀ items, isJsonItems (loadsItems items) = true
  | [] => rfl
  | item :: rest => by
    rw [loadsItems, isJsonItems, isJson_jsonLoads item, isJson_loadsItems rest]
    rfl

theorem isJson_loadsEntries : ∀ entries, isJsonEntries (loadsEntries entries) = true
  | [] => rfl
  | (units, value) :: rest => by
    rw [loadsEntries, isJsonEntries, isJson_jsonLoads value, isJson_loadsEntries rest]
    rfl

end

end PyValue

/-! ### Every value that is accepted -/

section Accepted

variable {floatRepr : PyFloat → String}

theorem PyKey.isUnicode_name {key : PyKey} {s : Text} (h : key.name floatRepr = .ok s) :
    s.reread.isUnicode = key.sendable := by
  have hplain : ∀ t : String, (Text.ofString t).reread.isUnicode = true := fun t => by
    rw [Text.reread_of_isUnicode (Text.isUnicode_ofString t), Text.isUnicode_ofString]
  cases key with
  | str t =>
    obtain rfl := Except.ok.inj h
    exact Text.isUnicode_reread t
  | other => cases h
  | _ =>
    obtain rfl := Except.ok.inj h
    exact hplain _

/-- The keys of the document, read back. -/
theorem mem_keys_loads {entries : List (PyKey × PyValue)} {documents : List (List CodeUnit × Json)}
    (h : dumpsEntries floatRepr entries = .ok documents) (t : Text) :
    PyKey.str t ∈ (loadsEntries documents).map Prod.fst ↔
      ∃ e ∈ entries, e.1.readBack floatRepr = some t := by
  induction entries generalizing documents with
  | nil =>
    obtain rfl := Except.ok.inj h
    simp [loadsEntries]
  | cons e rest ih =>
    obtain ⟨key, value⟩ := e
    rw [dumpsEntries] at h
    obtain ⟨s, hs, h⟩ := bind_eq_ok.1 h
    obtain ⟨document, -, h⟩ := bind_eq_ok.1 h
    obtain ⟨documents, hrest, h⟩ := bind_eq_ok.1 h
    obtain rfl := Except.ok.inj h
    have hkey : key.readBack floatRepr = some s.reread := by
      rw [PyKey.readBack, hs]
      rfl
    rw [loadsEntries, List.map_cons, List.mem_cons, ih hrest, List.exists_mem_cons_iff, hkey,
      PyKey.str.injEq, Option.some.injEq]
    exact or_congr_left eq_comm

namespace PyValue

mutual

/-- MessagePack takes what comes back of an accepted value exactly if the value is sendable. -/
theorem encodable_jsonLoads : ∀ value document, jsonDumps floatRepr value = .ok document →
    encodable (jsonLoads document) = sendable floatRepr value
  | .none, _, h | .bool _, _, h | .int _, _, h | .float _, _, h => by
    obtain rfl := Except.ok.inj h
    rfl
  | .str s, _, h => by
    obtain rfl := Except.ok.inj h
    exact Text.isUnicode_reread s
  | .list items, _, h | .set items, _, h => by
    obtain ⟨documents, hitems, h⟩ := bind_eq_ok.1 h
    obtain rfl := Except.ok.inj h
    exact encodable_loadsItems items documents hitems
  | .dict entries, _, h => by
    rw [jsonDumps] at h
    split_ifs at h
    obtain ⟨documents, hentries, h⟩ := bind_eq_ok.1 h
    obtain rfl := Except.ok.inj h
    exact encodable_loadsEntries entries documents hentries
  | .enum value, document, h => encodable_jsonLoads value document h
  | .object toDict, document, h => encodable_jsonLoads toDict document h
  | .bytes _, _, h | .other _, _, h => by cases h

theorem encodable_loadsItems : ∀ items documents, dumpsItems floatRepr items = .ok documents →
    encodableItems (loadsItems documents) = sendableItems floatRepr items
  | [], _, h => by
    obtain rfl := Except.ok.inj h
    rfl
  | item :: rest, _, h => by
    rw [dumpsItems] at h
    obtain ⟨document, hitem, h⟩ := bind_eq_ok.1 h
    obtain ⟨documents, hrest, h⟩ := bind_eq_ok.1 h
    obtain rfl := Except.ok.inj h
    rw [loadsItems, encodableItems, sendableItems, encodable_jsonLoads item document hitem,
      encodable_loadsItems rest documents hrest]

theorem encodable_loadsEntries : ∀ entries documents,
    dumpsEntries floatRepr entries = .ok documents →
      encodableEntries (dictOf (loadsEntries documents)) = sendableEntries floatRepr entries
  | [], _, h => by
    obtain rfl := Except.ok.inj h
    rfl
  | (key, value) :: rest, _, h => by
    rw [dumpsEntries] at h
    obtain ⟨s, hs, h⟩ := bind_eq_ok.1 h
    obtain ⟨document, hvalue, h⟩ := bind_eq_ok.1 h
    obtain ⟨documents, hrest, h⟩ := bind_eq_ok.1 h
    obtain rfl := Except.ok.inj h
    have hkey : key.readBack floatRepr = some s.reread := by
      rw [PyKey.readBack, hs]
      rfl
    have hover : rest.any (fun e => e.1.readBack floatRepr = key.readBack floatRepr) =
        decide (PyKey.str s.reread ∈ (loadsEntries documents).map Prod.fst) := by
      rw [Bool.eq_iff_iff, List.any_eq_true, decide_eq_true_eq, mem_keys_loads hrest, hkey]
      simp only [decide_eq_true_eq]
    have ih := encodable_loadsEntries rest documents hrest
    change encodableEntries (dictOf ((.str s.reread, jsonLoads document) :: loadsEntries documents)) = _
    rw [sendableEntries, hover, dictOf]
    by_cases hmem : PyKey.str s.reread ∈ (loadsEntries documents).map Prod.fst
    · rw [if_pos hmem, ih, decide_eq_true hmem]
      rfl
    · rw [if_neg hmem, encodableEntries, ih, decide_eq_false hmem,
        encodable_jsonLoads value document hvalue, ← PyKey.isUnicode_name hs]
      rfl

end

end PyValue
end Accepted

/-! ### Plain values -/

namespace PyValue

mutual

/-- Built from `None`, booleans, 64-bit integers, finite floats, Unicode strings, lists and
dictionaries with such strings as keys. -/
def plain : PyValue → Bool
  | .none | .bool _ | .float (.finite _) => true
  | .int n => fitsMsgpack n
  | .str s => s.isUnicode
  | .list items => plainItems items
  | .dict entries => plainEntries entries
  | _ => false

def plainItems : List PyValue → Bool
  | [] => true
  | item :: rest => plain item && plainItems rest

def plainEntries : List (PyKey × PyValue) → Bool
  | [] => true
  | (key, value) :: rest =>
    key.encodable && !decide (key ∈ rest.map Prod.fst) && plain value && plainEntries rest

end

theorem plainEntries_cons {key : PyKey} {value : PyValue} {rest : List (PyKey × PyValue)} :
    plainEntries ((key, value) :: rest) = true ↔
      key.encodable = true ∧ key ∉ rest.map Prod.fst ∧ value.plain = true ∧
        plainEntries rest = true := by
  rw [plainEntries, Bool.and_eq_true, Bool.and_eq_true, Bool.and_eq_true, Bool.not_eq_true',
    decide_eq_false_iff_not, and_assoc, and_assoc]

theorem dictOf_of_plain {entries : List (PyKey × PyValue)} (h : plainEntries entries = true) :
    dictOf entries = entries := by
  induction entries with
  | nil => rfl
  | cons e rest ih =>
    obtain ⟨-, hnew, -, hrest⟩ := plainEntries_cons.1 h
    rw [dictOf, if_neg hnew, ih hrest]

theorem sortable_of_plain {entries : List (PyKey × PyValue)} (h : plainEntries entries = true) :
    sortable (entries.map Prod.fst) = true := by
  have hstr : (entries.map Prod.fst).all PyKey.isStr = true := by
    induction entries with
    | nil => rfl
    | cons e rest ih =>
      obtain ⟨hkey, -, -, hrest⟩ := plainEntries_cons.1 h
      rw [List.map_cons, List.all_cons, ih hrest, Bool.and_true]
      obtain ⟨key, value⟩ := e
      cases key <;> first | rfl | cases hkey
  rw [sortable, hstr, Bool.or_true, Bool.true_or]

section Plain

variable (floatRepr : PyFloat → String)

mutual

/-- A plain value is accepted and comes back as it was. -/
theorem jsonDumps_of_plain : ∀ value, plain value = true →
    ∃ document, jsonDumps floatRepr value = .ok document ∧ jsonLoads document = value
  | .none, _ | .bool _, _ | .int _, _ | .float (.finite _), _ => ⟨_, rfl, rfl⟩
  | .str s, h => ⟨_, rfl, congrArg PyValue.str (Text.reread_of_isUnicode h)⟩
  | .list items, h => by
    obtain ⟨documents, hdumps, hloads⟩ := dumpsItems_of_plain items h
    exact ⟨.arr documents, by rw [jsonDumps, hdumps]; rfl, congrArg PyValue.list hloads⟩
  | .dict entries, h => by
    obtain ⟨documents, hdumps, hloads⟩ := dumpsEntries_of_plain entries h
    refine ⟨.obj documents, ?_, ?_⟩
    · rw [jsonDumps, if_pos (sortable_of_plain h), hdumps]
      rfl
    · rw [jsonLoads, hloads, dictOf_of_plain h]
  | .float (.inf _), h | .float .nan, h | .bytes _, h | .set _, h | .enum _, h | .object _, h
  | .other _, h => by cases h

theorem dumpsItems_of_plain : ∀ items, plainItems items = true →
    ∃ documents, dumpsItems floatRepr items = .ok documents ∧ loadsItems documents = items
  | [], _ => ⟨_, rfl, rfl⟩
  | item :: rest, h => by
    obtain ⟨hitem, hrest⟩ := Bool.and_eq_true_iff.1 h
    obtain ⟨document, hdumps, hloads⟩ := jsonDumps_of_plain item hitem
    obtain ⟨documents, hdumps', hloads'⟩ := dumpsItems_of_plain rest hrest
    refine ⟨document :: documents, ?_, ?_⟩
    · rw [dumpsItems, hdumps, hdumps']
      rfl
    · rw [loadsItems, hloads, hloads']

theorem dumpsEntries_of_plain : ∀ entries, plainEntries entries = true →
    ∃ documents, dumpsEntries floatRepr entries = .ok documents ∧ loadsEntries documents = entries
  | [], _ => ⟨_, rfl, rfl⟩
  | (key, value) :: rest, h => by
    obtain ⟨hkey, -, hvalue, hrest⟩ := plainEntries_cons.1 h
    obtain ⟨document, hdumps, hloads⟩ := jsonDumps_of_plain value hvalue
    obtain ⟨documents, hdumps', hloads'⟩ := dumpsEntries_of_plain rest hrest
    cases key with
    | str s =>
      refine ⟨(s.utf16, document) :: documents, ?_, ?_⟩
      · rw [dumpsEntries, hdumps, hdumps']
        rfl
      · have hback : Text.scan s.utf16 = s := Text.reread_of_isUnicode hkey
        rw [loadsEntries, hloads, hloads', hback]
    | _ => cases hkey

end
end Plain

mutual

theorem encodable_of_plain : ∀ value, plain value = true → encodable value = true
  | .none, _ | .bool _, _ | .float (.finite _), _ => rfl
  | .int _, h | .str _, h => h
  | .list items, h => encodableItems_of_plain items h
  | .dict entries, h => encodableEntries_of_plain entries h
  | .float (.inf _), h | .float .nan, h | .bytes _, h | .set _, h | .enum _, h | .object _, h
  | .other _, h => by cases h

theorem encodableItems_of_plain : ∀ items, plainItems items = true → encodableItems items = true
  | [], _ => rfl
  | item :: rest, h => by
    obtain ⟨hitem, hrest⟩ := Bool.and_eq_true_iff.1 h
    rw [encodableItems, encodable_of_plain item hitem, encodableItems_of_plain rest hrest]
    rfl

theorem encodableEntries_of_plain : ∀ entries, plainEntries entries = true →
    encodableEntries entries = true
  | [], _ => rfl
  | (key, value) :: rest, h => by
    obtain ⟨hkey, -, hvalue, hrest⟩ := plainEntries_cons.1 h
    rw [encodableEntries, hkey, encodable_of_plain value hvalue,
      encodableEntries_of_plain rest hrest]
    rfl

end

theorem isJson_of_plain {value : PyValue} (h : plain value = true) : isJson value = true := by
  obtain ⟨document, -, rfl⟩ := jsonDumps_of_plain (fun _ => "") value h
  exact isJson_jsonLoads document

end PyValue

/-- `unpackb` gives back a plain value that `packb` has packed. -/
def Msgpack.RoundTrips (m : Msgpack) : Prop :=
  ∀ v bytes, v.plain = true → m.packb v = .ok bytes → m.unpackb bytes = .ok v

/-- A plain value is packed, and comes back. -/
theorem Msgpack.packMsgpack_of_plain {m : Msgpack} (hpacks : m.Packs) (hround : m.RoundTrips)
    {v : PyValue} (h : v.plain = true) :
    ∃ bytes, m.packMsgpack v = .ok bytes ∧ m.unpackMsgpack bytes = .ok v := by
  obtain ⟨bytes, hbytes⟩ := (hpacks v (PyValue.isJson_of_plain h)).2 (PyValue.encodable_of_plain v h)
  exact ⟨bytes, hbytes, hround v bytes h hbytes⟩

end Dhava
