/-
The shape of wire records in JSON. A record is an object, in any order and with further fields,
whose names are all texts and whose known names are given once each, or it is an array of the values
of the first fields in order. The identifier and the type have to be given as texts; a flag is false
and a date is zero if it is not given; an optional text may be null. Main statements: a value is
read as a record exactly if it has this shape, whatever the fields are, and the record of a page's
items.
-/
import Parley.Message.Wire

namespace Parley

/-! ## Fields of a value -/

namespace Json

namespace Value

variable {names : List String}

/-- A value gives a field of a record with the names: under the name, or at the place of the
name. -/
inductive Gives (names : List String) : Value → String → Value → Prop
  | field {fields : List (Text × Value)} {name : String} {w : Value}
      (h : (some name, w) ∈ fields) : Gives names (.object fields) name w
  | item {items : List Value} {i : Nat} {name : String} {w : Value}
      (hname : names[i]? = some name) (hitem : items[i]? = some w) :
      Gives names (.array items) name w

/-- A value that can be a record with the names: every name is a text, a known one is given once at
most, and there are no items without a name. -/
inductive IsRecord (names : List String) : Value → Prop
  | object {fields : List (Text × Value)} (texts : ∀ f ∈ fields, f.1 ≠ none)
      (once : fields.Pairwise fun f g => f.1 = g.1 → ∀ name ∈ names, f.1 ≠ some name) :
      IsRecord names (.object fields)
  | array {items : List Value} (named : items.length ≤ names.length) :
      IsRecord names (.array items)

end Value

namespace Record

/-! ### Looking a field up -/

/-- No name is there twice. -/
def Distinct (r : Record) : Prop :=
  r.Pairwise fun f g => f.1 ≠ g.1

theorem Distinct.lookup_eq_some_iff {r : Record} (h : r.Distinct) {name : String} {w : Value} :
    r.lookup name = some w ↔ (name, w) ∈ r := by
  induction r with
  | nil => simp
  | cons f r ih =>
    obtain ⟨key, v⟩ := f
    obtain ⟨hfirst, hrest⟩ := List.pairwise_cons.1 h
    rw [List.lookup_cons, List.mem_cons, Prod.mk.injEq]
    by_cases hkey : name = key
    · subst hkey
      have hlater : (name, w) ∉ r := fun hmem => hfirst _ hmem rfl
      simp [hlater, eq_comm]
    · rw [beq_false_of_ne hkey, ih hrest]
      simp [hkey]

theorem distinct_zip {names : List String} (h : names.Nodup) (items : List Value) :
    Distinct (names.zip items) := by
  induction names generalizing items with
  | nil => exact List.Pairwise.nil
  | cons name names ih =>
    rw [List.nodup_cons] at h
    cases items with
    | nil => exact List.Pairwise.nil
    | cons v items =>
      refine List.Pairwise.cons (fun f hf e => h.1 ?_) (ih h.2 items)
      rw [show name = f.1 from e]
      exact (List.of_mem_zip hf).1

/-! ### Reading -/

variable {names : List String}

/-- What is kept of the fields of an object: those with a known name. -/
def knownFields (names : List String) (fields : List (Text × Value)) : Record :=
  fields.filterMap fun f => f.1.bind fun name => if name ∈ names then some (name, f.2) else none

theorem mem_knownFields {fields : List (Text × Value)} {name : String} {w : Value} :
    (name, w) ∈ knownFields names fields ↔ name ∈ names ∧ (some name, w) ∈ fields := by
  simp only [knownFields, List.mem_filterMap, Option.bind_eq_some_iff]
  constructor
  · rintro ⟨⟨key, v⟩, hf, name', rfl, h⟩
    split at h
    · rename_i hname
      cases h
      exact ⟨hname, hf⟩
    · cases h
  · rintro ⟨hname, hf⟩
    exact ⟨_, hf, name, rfl, by rw [if_pos hname]⟩

theorem isRecord_object_cons_iff {key : Text} {v : Value} {fields : List (Text × Value)} :
    Value.IsRecord names (.object ((key, v) :: fields)) ↔
      (∃ name, key = some name ∧ (name ∈ names → ∀ w, (some name, w) ∉ fields)) ∧
        Value.IsRecord names (.object fields) := by
  constructor
  · rintro (⟨htexts, honce⟩ | _)
    obtain ⟨hkey, hrest⟩ := List.forall_mem_cons.1 htexts
    obtain ⟨hfirst, honce⟩ := List.pairwise_cons.1 honce
    obtain ⟨name, hname⟩ := Option.ne_none_iff_exists'.1 hkey
    refine ⟨⟨name, hname, fun hknown w hw => ?_⟩, .object hrest honce⟩
    exact hfirst _ hw hname name hknown hname
  · rintro ⟨⟨name, rfl, hfirst⟩, ⟨htexts, honce⟩ | _⟩
    refine .object (List.forall_mem_cons.2 ⟨nofun, htexts⟩) (List.pairwise_cons.2 ⟨?_, honce⟩)
    rintro ⟨key, w⟩ hw rfl name' hknown hname
    cases hname
    exact hfirst hknown w hw

theorem knownFields_cons {name : String} {v : Value} {fields : List (Text × Value)} :
    knownFields names ((some name, v) :: fields) =
      if name ∈ names then (name, v) :: knownFields names fields else knownFields names fields := by
  by_cases hname : name ∈ names <;> simp [knownFields, hname]

theorem distinct_knownFields {fields : List (Text × Value)}
    (h : Value.IsRecord names (.object fields)) : (knownFields names fields).Distinct := by
  induction fields with
  | nil => exact List.Pairwise.nil
  | cons f fields ih =>
    obtain ⟨key, v⟩ := f
    obtain ⟨⟨name, rfl, hfirst⟩, hrest⟩ := isRecord_object_cons_iff.1 h
    rw [knownFields_cons]
    split
    · rename_i hknown
      refine List.Pairwise.cons (fun g hg e => ?_) (ih hrest)
      obtain ⟨key, w⟩ := g
      obtain rfl : name = key := e
      exact hfirst hknown w (mem_knownFields.1 hg).2
    · exact ih hrest

/-- Reading the fields of an object keeps the known ones, unless some name is no text or a known one
is given twice. -/
theorem ofFields?_eq_some_iff {fields : List (Text × Value)} {r : Record} :
    ofFields? names fields = some r ↔
      Value.IsRecord names (.object fields) ∧ r = knownFields names fields := by
  induction fields generalizing r with
  | nil =>
    have hempty : Value.IsRecord names (.object []) := .object nofun .nil
    simp [ofFields?, hempty, knownFields, eq_comm]
  | cons f fields ih =>
    obtain ⟨key, v⟩ := f
    rw [isRecord_object_cons_iff]
    cases key with
    | none => simp [ofFields?]
    | some name =>
      cases hrest : ofFields? names fields with
      | none =>
        have hno : ¬ Value.IsRecord names (.object fields) := fun h => by
          cases hrest.symm.trans (ih.2 ⟨h, rfl⟩)
        simp [ofFields?, hrest, hno]
      | some known =>
        obtain ⟨hrecord, rfl⟩ := ih.1 hrest
        rw [ofFields?, hrest, knownFields_cons]
        by_cases hname : name ∈ names
        · simp only [hname, if_true]
          cases hfound : (knownFields names fields).lookup name with
          | none =>
            have hfirst (w : Value) : (some name, w) ∉ fields := fun hw => by
              have hmem := mem_knownFields.2 ⟨hname, hw⟩
              rw [(distinct_knownFields hrecord).lookup_eq_some_iff.2 hmem] at hfound
              cases hfound
            simp [hrecord, hname, hfirst, eq_comm]
          | some w =>
            have hmem := (distinct_knownFields hrecord).lookup_eq_some_iff.1 hfound
            have hsecond := (mem_knownFields.1 hmem).2
            simp only [Option.isSome_some, if_true]
            refine iff_of_false nofun ?_
            rintro ⟨⟨⟨name', hname', hfirst⟩, -⟩, -⟩
            cases hname'
            exact hfirst hname w hsecond
        · simp [hname, hrecord, eq_comm]

theorem exists_read?_iff {v : Value} : (∃ r, read? names v = some r) ↔ v.IsRecord names := by
  cases v with
  | object fields =>
    simp only [read?, ofFields?_eq_some_iff]
    exact ⟨fun ⟨_, h, _⟩ => h, fun h => ⟨_, h, rfl⟩⟩
  | array items =>
    simp only [read?]
    by_cases h : items.length ≤ names.length
    · exact iff_of_true ⟨_, if_pos h⟩ (.array h)
    · refine iff_of_false (fun ⟨r, hr⟩ => by rw [if_neg h] at hr; cases hr) ?_
      rintro (_ | hnamed)
      exact h hnamed
  | null | bool | number | string => exact iff_of_false nofun nofun

section

variable {v : Value} {r : Record} (hnames : names.Nodup) (hread : read? names v = some r)
include hnames hread

/-- A field of a record that was read is what the value gives under the name. -/
theorem lookup_eq_some_iff {name : String} (hname : name ∈ names) {w : Value} :
    r.lookup name = some w ↔ v.Gives names name w := by
  cases v with
  | object fields =>
    obtain ⟨hrecord, rfl⟩ := ofFields?_eq_some_iff.1 hread
    rw [(distinct_knownFields hrecord).lookup_eq_some_iff, mem_knownFields]
    constructor
    · exact fun h => .field h.2
    · rintro (h | _)
      exact ⟨hname, h⟩
  | array items =>
    simp only [read?] at hread
    split at hread
    · cases hread
      rw [(distinct_zip hnames items).lookup_eq_some_iff, List.mem_iff_getElem?]
      simp only [List.getElem?_zip_eq_some]
      constructor
      · rintro ⟨i, hi, hitem⟩
        exact .item hi hitem
      · rintro (_ | ⟨hi, hitem⟩)
        exact ⟨_, hi, hitem⟩
    · cases hread
  | null | bool | number | string => cases hread

theorem lookup_eq_none_iff {name : String} (hname : name ∈ names) :
    r.lookup name = none ↔ ∀ w, ¬ v.Gives names name w := by
  simp only [Option.eq_none_iff_forall_ne_some, ne_eq,
    lookup_eq_some_iff hnames hread hname]

variable {α : Type} {read : Value → Option α}

theorem required?_eq_some_iff {name : String} (hname : name ∈ names) {a : α} :
    r.required? name read = some a ↔ ∃ w, v.Gives names name w ∧ read w = some a := by
  unfold required?
  cases h : r.lookup name with
  | some w =>
    have hw := lookup_eq_some_iff hnames hread hname (w := w)
    refine ⟨fun ha => ⟨w, hw.1 h, ha⟩, ?_⟩
    rintro ⟨w', hw', ha⟩
    rw [← lookup_eq_some_iff hnames hread hname, h] at hw'
    cases hw'
    exact ha
  | none =>
    refine iff_of_false nofun ?_
    rintro ⟨w, hw, -⟩
    exact (lookup_eq_none_iff hnames hread hname).1 h w hw

theorem withDefault?_eq_some_iff {name : String} (hname : name ∈ names) {d a : α} :
    r.withDefault? name read d = some a ↔
      (∃ w, v.Gives names name w ∧ read w = some a) ∨
        (∀ w, ¬ v.Gives names name w) ∧ a = d := by
  rw [← required?_eq_some_iff hnames hread hname, ← lookup_eq_none_iff hnames hread hname]
  unfold required? withDefault?
  cases r.lookup name <;> simp [eq_comm]

theorem optional?_eq_some_iff {name : String} (hname : name ∈ names) {o : Option α} :
    r.optional? name read = some o ↔
      (∃ a w, o = some a ∧ v.Gives names name w ∧ w ≠ .null ∧ read w = some a) ∨
        o = none ∧ ∀ w, v.Gives names name w → w = .null := by
  simp only [← lookup_eq_some_iff hnames hread hname]
  unfold optional?
  cases r.lookup name with
  | none => simp [eq_comm]
  | some w =>
    have hmap : (read w).map some = some o ↔ ∃ a, o = some a ∧ read w = some a := by
      simp only [Option.map_eq_some_iff, eq_comm (a := o), and_comm]
    cases w with
    | null => simp [eq_comm]
    | bool | number | string | array | object => simpa using hmap

end

end Record

/-! ## Plain data -/

theorem mapM_eq_some_iff {α β : Type} {f : α → Option β} {xs : List α} {ys : List β} :
    xs.mapM f = some ys ↔ xs.map f = ys.map some := by
  induction xs generalizing ys with
  | nil => cases ys <;> simp
  | cons x xs ih =>
    rw [List.mapM_cons]
    cases hx : f x with
    | none => cases ys <;> simp [hx]
    | some y =>
      cases hxs : xs.mapM f with
      | none =>
        refine iff_of_false nofun fun h => ?_
        cases ys with
        | nil => cases h
        | cons y' ys =>
          have hrest := ih.2 (List.cons.inj h).2
          rw [hxs] at hrest
          cases hrest
      | some ys' =>
        rw [List.map_cons, ih.1 hxs, hx]
        show some (y :: ys') = some ys ↔ (y :: ys').map some = ys.map some
        rw [Option.some.injEq]
        exact (List.map_inj_right fun _ _ => Option.some.inj).symm

namespace Value

variable {v : Value}

theorem text?_eq_some_iff {t : String} : v.text? = some t ↔ v = .ofString t := by
  cases v <;> simp [text?, ofString]

theorem bool?_eq_some_iff {b : Bool} : v.bool? = some b ↔ v = .bool b := by
  cases v <;> simp [bool?]

/-- A number written as digits only, and what it denotes. -/
def IsNat (v : Value) (n : Nat) : Prop :=
  ∃ written, v = .number written ∧ written.toList ≠ [] ∧
    (∀ d ∈ written.toList, d.isDigit = true) ∧ Nat.ofDigitChars 10 written.toList 0 = n

theorem nat?_eq_some_iff {n : Nat} : v.nat? = some n ↔ v.IsNat n := by
  cases v with
  | number written =>
    simp only [nat?, Text.decimal?, IsNat, number.injEq, exists_eq_left']
    split
    · rename_i hno
      simp only [Bool.or_eq_true, List.isEmpty_iff, Bool.not_eq_true', List.all_eq_false] at hno
      refine iff_of_false nofun ?_
      rintro ⟨hne, hdigits, -⟩
      rcases hno with hnil | ⟨d, hd, hno⟩
      · exact hne hnil
      · exact hno (hdigits d hd)
    · rename_i hyes
      simp only [Bool.or_eq_true, List.isEmpty_iff, Bool.not_eq_true', List.all_eq_false,
        not_or, not_exists, not_and, Bool.not_eq_true, Bool.not_eq_false] at hyes
      rw [Option.some.injEq]
      exact ⟨fun h => ⟨hyes.1, hyes.2, h⟩, fun h => h.2.2⟩
  | null | bool | string | array | object => simp [nat?, IsNat]

theorem natBelow?_eq_some_iff {bound n : Nat} :
    v.natBelow? bound = some n ↔ v.IsNat n ∧ n < bound := by
  rw [← nat?_eq_some_iff]
  unfold natBelow?
  cases v.nat? with
  | none => simp
  | some m =>
    simp only [Option.some.injEq]
    split
    · rename_i hlt
      rw [Option.some.injEq]
      exact ⟨fun e => ⟨e, e ▸ hlt⟩, And.left⟩
    · rename_i hge
      refine iff_of_false nofun ?_
      rintro ⟨rfl, hlt⟩
      exact hge hlt

theorem list?_eq_some_iff {α : Type} {read : Value → Option α} {as : List α} :
    v.list? read = some as ↔ ∃ vs, v = .array vs ∧ vs.map read = as.map some := by
  cases v <;> simp [list?, mapM_eq_some_iff]

theorem texts?_eq_some_iff {ts : List String} :
    v.list? text? = some ts ↔ v = .ofStrings ts := by
  have hmap (vs : List Value) (ts : List String) :
      vs.map text? = ts.map some ↔ vs = ts.map ofString := by
    induction vs generalizing ts with
    | nil => cases ts <;> simp
    | cons v vs ih => cases ts <;> simp [ih, text?_eq_some_iff]
  rw [list?_eq_some_iff, ofStrings]
  constructor
  · rintro ⟨vs, rfl, hvs⟩
    rw [(hmap vs ts).1 hvs]
  · rintro rfl
    exact ⟨_, rfl, (hmap _ ts).2 rfl⟩

end Value

end Json

/-! ## Wire records -/

namespace WireRecord

open Json

/-- The wire names of the reference kinds, which are the fields of references. -/
def kindNames : List String :=
  ReferenceKind.all.map ReferenceKind.name

/-- A value spells references: under each kind a list of texts, or nothing for none. -/
structure SpellsReferences (v : Value) (lists : ByKind (List String)) : Prop where
  record : v.IsRecord kindNames
  lists : ∀ k, v.Gives kindNames k.name (.ofStrings (lists.get k)) ∨
    lists.get k = [] ∧ ∀ w, v.Gives kindNames k.name w → w = .null

/-- An optional text of a wire record; null counts as not given. -/
def SpellsText (v : Value) (name : String) (o : Option String) : Prop :=
  (∃ t, o = some t ∧ v.Gives fieldNames name (.ofString t)) ∨
    o = none ∧ ∀ w, v.Gives fieldNames name w → w = .null

/-- A flag of a wire record, which is false unless it is given. -/
def SpellsFlag (v : Value) (name : String) (b : Bool) : Prop :=
  v.Gives fieldNames name (.bool b) ∨ (∀ w, ¬ v.Gives fieldNames name w) ∧ b = false

/-- A value spells a wire record. -/
structure SpelledBy (r : WireRecord) (v : Value) : Prop where
  record : v.IsRecord fieldNames
  uri : v.Gives fieldNames "uri" (.ofString r.uri)
  remoteUri : SpellsText v "remoteUri" r.remoteUri
  messageType : v.Gives fieldNames "messageType" (.ofString r.messageType)
  outgoingMessage : SpellsFlag v "outgoingMessage" r.outgoingMessage
  systemMessage : SpellsFlag v "systemMessage" r.systemMessage
  hasContent : SpellsFlag v "hasContent" r.hasContent
  hasReferences : SpellsFlag v "hasReferences" r.hasReferences
  references : (∃ w, v.Gives fieldNames "references" w ∧ SpellsReferences w r.references) ∨
    (∀ w, ¬ v.Gives fieldNames "references" w) ∧ r.references = noReferences
  senderSocketUri : SpellsText v "senderSocketUri" r.senderSocketUri
  targetSocketUri : SpellsText v "targetSocketUri" r.targetSocketUri
  date : (∃ w, v.Gives fieldNames "date" w ∧ w.IsNat r.date ∧ r.date < UInt64.size) ∨
    (∀ w, ¬ v.Gives fieldNames "date" w) ∧ r.date = 0
  unread : SpellsFlag v "unread" r.unread
  receivedByOwn : SpellsFlag v "isReceivedByOwn" r.receivedByOwn
  receivedByRemote : SpellsFlag v "isReceivedByRemote" r.receivedByRemote
  failedToSend : SpellsFlag v "failedToSend" r.failedToSend

section

variable {v : Value}

theorem kindNames_nodup : kindNames.Nodup := by
  decide

theorem name_mem_kindNames (k : ReferenceKind) : k.name ∈ kindNames :=
  List.mem_map_of_mem (ReferenceKind.mem_all k)

theorem readList_eq_some_iff {f : Record} (hread : Record.read? kindNames v = some f)
    (k : ReferenceKind) {ts : List String} :
    (do let l ← f.optional? k.name (Value.list? Value.text?); return l.getD []) = some ts ↔
      v.Gives kindNames k.name (.ofStrings ts) ∨
        ts = [] ∧ ∀ w, v.Gives kindNames k.name w → w = .null := by
  have hoptional (o : Option (List String)) :
      f.optional? k.name (Value.list? Value.text?) = some o ↔ _ :=
    Record.optional?_eq_some_iff kindNames_nodup hread (name_mem_kindNames k)
  simp only [Option.bind_eq_bind, Option.bind_eq_some_iff, Option.pure_def, Option.some.injEq,
    hoptional, Value.texts?_eq_some_iff]
  constructor
  · rintro ⟨o, ⟨l, w, rfl, hw, -, rfl⟩ | ⟨rfl, hnone⟩, rfl⟩
    · exact Or.inl hw
    · exact Or.inr ⟨rfl, hnone⟩
  · rintro (hw | ⟨rfl, hnone⟩)
    · exact ⟨some ts, Or.inl ⟨ts, _, rfl, hw, nofun, rfl⟩, rfl⟩
    · exact ⟨none, Or.inr ⟨rfl, hnone⟩, rfl⟩

theorem readReferences?_eq_some_iff {lists : ByKind (List String)} :
    readReferences? v = some lists ↔ SpellsReferences v lists := by
  constructor
  · intro h
    obtain ⟨f, hread, h⟩ := Option.bind_eq_some_iff.1 h
    obtain ⟨proposes, hproposes, h⟩ := Option.bind_eq_some_iff.1 h
    obtain ⟨claims, hclaims, h⟩ := Option.bind_eq_some_iff.1 h
    obtain ⟨accepts, haccepts, h⟩ := Option.bind_eq_some_iff.1 h
    obtain ⟨rejects, hrejects, h⟩ := Option.bind_eq_some_iff.1 h
    obtain ⟨retracts, hretracts, h⟩ := Option.bind_eq_some_iff.1 h
    obtain ⟨cancels, hcancels, h⟩ := Option.bind_eq_some_iff.1 h
    cases h
    refine ⟨Record.exists_read?_iff.1 ⟨f, hread⟩, fun k => ?_⟩
    cases k with
    | proposes => exact (readList_eq_some_iff hread _).1 hproposes
    | claims => exact (readList_eq_some_iff hread _).1 hclaims
    | accepts => exact (readList_eq_some_iff hread _).1 haccepts
    | rejects => exact (readList_eq_some_iff hread _).1 hrejects
    | retracts => exact (readList_eq_some_iff hread _).1 hretracts
    | proposesToCancel => exact (readList_eq_some_iff hread _).1 hcancels
  · rintro ⟨hrecord, hlists⟩
    obtain ⟨f, hread⟩ := Record.exists_read?_iff.2 hrecord
    have hlist (k : ReferenceKind) := (readList_eq_some_iff hread k).2 (hlists k)
    refine Option.bind_eq_some_iff.2 ⟨f, hread, ?_⟩
    refine Option.bind_eq_some_iff.2 ⟨_, hlist .proposes, ?_⟩
    refine Option.bind_eq_some_iff.2 ⟨_, hlist .claims, ?_⟩
    refine Option.bind_eq_some_iff.2 ⟨_, hlist .accepts, ?_⟩
    refine Option.bind_eq_some_iff.2 ⟨_, hlist .rejects, ?_⟩
    refine Option.bind_eq_some_iff.2 ⟨_, hlist .retracts, ?_⟩
    exact Option.bind_eq_some_iff.2 ⟨_, hlist .proposesToCancel, rfl⟩

/-! ### The record -/

theorem fieldNames_nodup : fieldNames.Nodup := by
  decide

theorem dateBound_eq : dateBound = UInt64.size :=
  rfl

section

variable {f : Record} (hread : Record.read? fieldNames v = some f) {name : String}
  (hname : name ∈ fieldNames)
include hread hname

theorem readText_eq_some_iff {t : String} :
    f.required? name Value.text? = some t ↔ v.Gives fieldNames name (.ofString t) := by
  rw [Record.required?_eq_some_iff fieldNames_nodup hread hname]
  simp only [Value.text?_eq_some_iff, exists_eq_right]

theorem readOptionalText_eq_some_iff {o : Option String} :
    f.optional? name Value.text? = some o ↔ SpellsText v name o := by
  rw [Record.optional?_eq_some_iff fieldNames_nodup hread hname]
  refine or_congr_left ⟨?_, ?_⟩
  · rintro ⟨t, w, rfl, hw, -, ht⟩
    rw [Value.text?_eq_some_iff] at ht
    exact ⟨t, rfl, ht ▸ hw⟩
  · rintro ⟨t, rfl, hw⟩
    exact ⟨t, _, rfl, hw, nofun, rfl⟩

theorem readFlag_eq_some_iff {b : Bool} :
    f.withDefault? name Value.bool? false = some b ↔ SpellsFlag v name b := by
  rw [Record.withDefault?_eq_some_iff fieldNames_nodup hread hname]
  simp only [Value.bool?_eq_some_iff, exists_eq_right, SpellsFlag]

end

section

variable {f : Record} (hread : Record.read? fieldNames v = some f)
include hread

theorem readReferenceField_eq_some_iff {lists : ByKind (List String)} :
    f.withDefault? "references" readReferences? noReferences = some lists ↔
      (∃ w, v.Gives fieldNames "references" w ∧ SpellsReferences w lists) ∨
        (∀ w, ¬ v.Gives fieldNames "references" w) ∧ lists = noReferences := by
  rw [Record.withDefault?_eq_some_iff fieldNames_nodup hread (by decide)]
  simp only [readReferences?_eq_some_iff]

theorem readDate_eq_some_iff {n : Nat} :
    f.withDefault? "date" (Value.natBelow? dateBound) 0 = some n ↔
      (∃ w, v.Gives fieldNames "date" w ∧ w.IsNat n ∧ n < UInt64.size) ∨
        (∀ w, ¬ v.Gives fieldNames "date" w) ∧ n = 0 := by
  rw [Record.withDefault?_eq_some_iff fieldNames_nodup hread (by decide)]
  simp only [Value.natBelow?_eq_some_iff, dateBound_eq]

end

theorem ofJson?_eq_some_iff {r : WireRecord} : ofJson? v = some r ↔ r.SpelledBy v := by
  constructor
  · intro h
    obtain ⟨f, hread, h⟩ := Option.bind_eq_some_iff.1 h
    obtain ⟨uri, huri, h⟩ := Option.bind_eq_some_iff.1 h
    obtain ⟨remote, hremote, h⟩ := Option.bind_eq_some_iff.1 h
    obtain ⟨type, htype, h⟩ := Option.bind_eq_some_iff.1 h
    obtain ⟨outgoing, houtgoing, h⟩ := Option.bind_eq_some_iff.1 h
    obtain ⟨system, hsystem, h⟩ := Option.bind_eq_some_iff.1 h
    obtain ⟨content, hcontent, h⟩ := Option.bind_eq_some_iff.1 h
    obtain ⟨hasReferences, hhas, h⟩ := Option.bind_eq_some_iff.1 h
    obtain ⟨references, hreferences, h⟩ := Option.bind_eq_some_iff.1 h
    obtain ⟨sender, hsender, h⟩ := Option.bind_eq_some_iff.1 h
    obtain ⟨target, htarget, h⟩ := Option.bind_eq_some_iff.1 h
    obtain ⟨date, hdate, h⟩ := Option.bind_eq_some_iff.1 h
    obtain ⟨unread, hunread, h⟩ := Option.bind_eq_some_iff.1 h
    obtain ⟨own, hown, h⟩ := Option.bind_eq_some_iff.1 h
    obtain ⟨other, hother, h⟩ := Option.bind_eq_some_iff.1 h
    obtain ⟨failed, hfailed, h⟩ := Option.bind_eq_some_iff.1 h
    cases h
    exact {
      record := Record.exists_read?_iff.1 ⟨f, hread⟩
      uri := (readText_eq_some_iff hread (by decide)).1 huri
      remoteUri := (readOptionalText_eq_some_iff hread (by decide)).1 hremote
      messageType := (readText_eq_some_iff hread (by decide)).1 htype
      outgoingMessage := (readFlag_eq_some_iff hread (by decide)).1 houtgoing
      systemMessage := (readFlag_eq_some_iff hread (by decide)).1 hsystem
      hasContent := (readFlag_eq_some_iff hread (by decide)).1 hcontent
      hasReferences := (readFlag_eq_some_iff hread (by decide)).1 hhas
      references := (readReferenceField_eq_some_iff hread).1 hreferences
      senderSocketUri := (readOptionalText_eq_some_iff hread (by decide)).1 hsender
      targetSocketUri := (readOptionalText_eq_some_iff hread (by decide)).1 htarget
      date := (readDate_eq_some_iff hread).1 hdate
      unread := (readFlag_eq_some_iff hread (by decide)).1 hunread
      receivedByOwn := (readFlag_eq_some_iff hread (by decide)).1 hown
      receivedByRemote := (readFlag_eq_some_iff hread (by decide)).1 hother
      failedToSend := (readFlag_eq_some_iff hread (by decide)).1 hfailed }
  · intro h
    obtain ⟨f, hread⟩ := Record.exists_read?_iff.2 h.record
    have hflag {name : String} {b : Bool} (hname : name ∈ fieldNames) (hb : SpellsFlag v name b) :=
      (readFlag_eq_some_iff hread hname).2 hb
    have htext {name : String} {o : Option String} (hname : name ∈ fieldNames)
      (ho : SpellsText v name o) := (readOptionalText_eq_some_iff hread hname).2 ho
    have huri := (readText_eq_some_iff hread (by decide)).2 h.uri
    have htype := (readText_eq_some_iff hread (by decide)).2 h.messageType
    have hreferences := (readReferenceField_eq_some_iff hread).2 h.references
    have hdate := (readDate_eq_some_iff hread).2 h.date
    refine Option.bind_eq_some_iff.2 ⟨f, hread, ?_⟩
    refine Option.bind_eq_some_iff.2 ⟨_, huri, ?_⟩
    refine Option.bind_eq_some_iff.2 ⟨_, htext (by decide) h.remoteUri, ?_⟩
    refine Option.bind_eq_some_iff.2 ⟨_, htype, ?_⟩
    refine Option.bind_eq_some_iff.2 ⟨_, hflag (by decide) h.outgoingMessage, ?_⟩
    refine Option.bind_eq_some_iff.2 ⟨_, hflag (by decide) h.systemMessage, ?_⟩
    refine Option.bind_eq_some_iff.2 ⟨_, hflag (by decide) h.hasContent, ?_⟩
    refine Option.bind_eq_some_iff.2 ⟨_, hflag (by decide) h.hasReferences, ?_⟩
    refine Option.bind_eq_some_iff.2 ⟨_, hreferences, ?_⟩
    refine Option.bind_eq_some_iff.2 ⟨_, htext (by decide) h.senderSocketUri, ?_⟩
    refine Option.bind_eq_some_iff.2 ⟨_, htext (by decide) h.targetSocketUri, ?_⟩
    refine Option.bind_eq_some_iff.2 ⟨_, hdate, ?_⟩
    refine Option.bind_eq_some_iff.2 ⟨_, hflag (by decide) h.unread, ?_⟩
    refine Option.bind_eq_some_iff.2 ⟨_, hflag (by decide) h.receivedByOwn, ?_⟩
    refine Option.bind_eq_some_iff.2 ⟨_, hflag (by decide) h.receivedByRemote, ?_⟩
    exact Option.bind_eq_some_iff.2 ⟨_, hflag (by decide) h.failedToSend, rfl⟩

end

end WireRecord

end Parley
