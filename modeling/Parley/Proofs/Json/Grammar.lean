/-
The grammar of JSON at the level of tokens. A value has one spelling: that of an array is its items
between brackets, separated by commas, and that of an object its fields between braces, each a name,
a colon and a value. Main statement: the reader accepts a list of tokens exactly if it spells a
value, and answers that value.

The reader keeps the open containers as a stack, so what is preserved along its run is that the
stack accounts for all tokens read so far. Conversely the tokens of a value take the reader from
where a value must come to where it is complete, whatever containers are open around it.
-/
import Parley.Json.Reader

namespace Parley.Json

/-! ## Spelling a value -/

mutual

/-- The tokens of a value. -/
def Value.tokens : Value → List Token
  | .null => [.null]
  | .bool b => [.bool b]
  | .number w => [.number w]
  | .string t => [.string t]
  | .array [] => [.openArray, .closeArray]
  | .array (v :: items) => .openArray :: v.tokens ++ moreItems items ++ [.closeArray]
  | .object [] => [.openObject, .closeObject]
  | .object ((k, v) :: fields) =>
    .openObject :: .string k :: .colon :: v.tokens ++ moreFields fields ++ [.closeObject]

/-- The tokens of the items of an array after the first. -/
def moreItems : List Value → List Token
  | [] => []
  | v :: items => .comma :: v.tokens ++ moreItems items

/-- The tokens of the fields of an object after the first. -/
def moreFields : List (Text × Value) → List Token
  | [] => []
  | (k, v) :: fields => .comma :: .string k :: .colon :: v.tokens ++ moreFields fields

end

/-- The tokens of an array without its end. -/
def openItems : List Value → List Token
  | [] => [.openArray]
  | v :: items => .openArray :: v.tokens ++ moreItems items

/-- The tokens of an object without its end. -/
def openFields : List (Text × Value) → List Token
  | [] => [.openObject]
  | (k, v) :: fields => .openObject :: .string k :: .colon :: v.tokens ++ moreFields fields

/-- The comma before an item or field after the given ones. -/
def separator {α : Type} : List α → List Token
  | [] => []
  | _ :: _ => [.comma]

theorem tokens_array (items : List Value) :
    (Value.array items).tokens = openItems items ++ [.closeArray] := by
  cases items <;> simp [Value.tokens, openItems]

theorem tokens_object (fields : List (Text × Value)) :
    (Value.object fields).tokens = openFields fields ++ [.closeObject] := by
  cases fields <;> simp [Value.tokens, openFields]

theorem moreItems_snoc (items : List Value) (v : Value) :
    moreItems (items ++ [v]) = moreItems items ++ .comma :: v.tokens := by
  induction items with
  | nil => simp [moreItems]
  | cons w items ih => simp [moreItems, ih]

theorem moreFields_snoc (fields : List (Text × Value)) (k : Text) (v : Value) :
    moreFields (fields ++ [(k, v)]) =
      moreFields fields ++ .comma :: .string k :: .colon :: v.tokens := by
  induction fields with
  | nil => simp [moreFields]
  | cons f fields ih => simp [moreFields, ih]

theorem openItems_snoc (items : List Value) (v : Value) :
    openItems (items ++ [v]) = openItems items ++ separator items ++ v.tokens := by
  cases items <;> simp [openItems, separator, moreItems, moreItems_snoc]

theorem openFields_snoc (fields : List (Text × Value)) (k : Text) (v : Value) :
    openFields (fields ++ [(k, v)]) =
      openFields fields ++ separator fields ++ .string k :: .colon :: v.tokens := by
  cases fields <;> simp [openFields, separator, moreFields, moreFields_snoc]

namespace Reader

/-! ## What has been read -/

/-- The tokens of an open container up to where its next value starts. -/
def Frame.tokens : Frame → List Token
  | .array items => openItems items.reverse ++ separator items
  | .object fields k => openFields fields.reverse ++ separator fields ++ [.string k, .colon]

/-- The tokens of the open containers, from the outermost to where the value inside starts. -/
def outerTokens (outer : List Frame) : List Token :=
  outer.reverse.flatMap Frame.tokens

/-- The tokens that were read on the way to a state. -/
def State.tokens : State → List Token
  | .value outer => outerTokens outer
  | .firstItem outer => outerTokens outer ++ [.openArray]
  | .firstKey outer => outerTokens outer ++ [.openObject]
  | .key fields outer => outerTokens outer ++ openFields fields.reverse ++ separator fields
  | .colon k fields outer =>
    outerTokens outer ++ openFields fields.reverse ++ separator fields ++ [.string k]
  | .afterItem items outer => outerTokens outer ++ openItems items.reverse
  | .afterField fields outer => outerTokens outer ++ openFields fields.reverse
  | .finished v => v.tokens

/-- After an item there is one, and after a field, or a field and a comma, there is one. -/
def State.IsProper : State → Prop
  | .key fields _ => fields ≠ []
  | .afterItem items _ => items ≠ []
  | .afterField fields _ => fields ≠ []
  | _ => True

/-- A state that accounts for the tokens read so far. -/
structure State.Accounts (s : State) (read : List Token) : Prop where
  proper : s.IsProper
  tokens : s.tokens = read

theorem outerTokens_cons (f : Frame) (outer : List Frame) :
    outerTokens (f :: outer) = outerTokens outer ++ f.tokens := by
  simp [outerTokens]

theorem separator_of_ne_nil {α : Type} {l : List α} (h : l ≠ []) : separator l = [.comma] := by
  cases l with
  | nil => exact absurd rfl h
  | cons x l => rfl

theorem separator_reverse {α : Type} (l : List α) : separator l.reverse = separator l := by
  cases l with
  | nil => rfl
  | cons x l => exact separator_of_ne_nil (by simp)

theorem accounts_complete (v : Value) (outer : List Frame) :
    (State.complete v outer).Accounts (outerTokens outer ++ v.tokens) := by
  rcases outer with _ | ⟨items | ⟨fields, k⟩, outer⟩
  · exact ⟨trivial, rfl⟩
  · refine ⟨List.cons_ne_nil _ _, ?_⟩
    simp [State.complete, State.tokens, outerTokens_cons, Frame.tokens, openItems_snoc,
      separator_reverse]
  · refine ⟨List.cons_ne_nil _ _, ?_⟩
    simp [State.complete, State.tokens, outerTokens_cons, Frame.tokens, openFields_snoc,
      separator_reverse]

section

variable {s s' : State} {read : List Token} {t : Token}

theorem accounts_startValue {outer : List Frame} (h : State.startValue outer t = some s') :
    s'.Accounts (outerTokens outer ++ [t]) := by
  unfold State.startValue at h
  split at h <;> cases h
  · exact ⟨trivial, rfl⟩
  · exact ⟨trivial, rfl⟩
  · simpa [Value.tokens] using accounts_complete .null outer
  · rename_i b
    simpa [Value.tokens] using accounts_complete (.bool b) outer
  · rename_i w
    simpa [Value.tokens] using accounts_complete (.number w) outer
  · rename_i k
    simpa [Value.tokens] using accounts_complete (.string k) outer

/-- A step accounts for its token. -/
theorem State.Accounts.step (hs : s.Accounts read) (h : s.step t = some s') :
    s'.Accounts (read ++ [t]) := by
  obtain ⟨hproper, rfl⟩ := hs
  unfold State.step at h
  split at h
  -- where a value must come
  · exact accounts_startValue h
  -- in an array that was opened: its end, or its first item
  · cases h
    simpa [State.tokens, tokens_array, openItems] using accounts_complete (.array []) _
  · have hfirst := accounts_startValue h
    simpa [State.tokens, outerTokens_cons, Frame.tokens, openItems, separator] using hfirst
  -- in an object that was opened: its end, or its first key
  · cases h
    simpa [State.tokens, tokens_object, openFields] using accounts_complete (.object []) _
  · cases h
    refine ⟨trivial, ?_⟩
    simp [State.tokens, openFields, separator]
  -- a later key, and the colon after a key
  · cases h
    refine ⟨trivial, ?_⟩
    simp [State.tokens]
  · cases h
    refine ⟨trivial, ?_⟩
    simp [State.tokens, outerTokens_cons, Frame.tokens]
  -- after an item: a comma, or the end of the array
  · cases h
    refine ⟨trivial, ?_⟩
    simp [State.tokens, outerTokens_cons, Frame.tokens, separator_of_ne_nil hproper]
  · cases h
    simpa [State.tokens, tokens_array] using accounts_complete (.array _) _
  -- after a field: a comma, or the end of the object
  · cases h
    refine ⟨hproper, ?_⟩
    simp [State.tokens, separator_of_ne_nil hproper]
  · cases h
    simpa [State.tokens, tokens_object] using accounts_complete (.object _) _
  · cases h

/-- So does a run for all of its tokens. -/
theorem State.Accounts.run (hs : s.Accounts read) {ts : List Token}
    (h : ts.foldlM State.step s = some s') : s'.Accounts (read ++ ts) := by
  induction ts generalizing s read with
  | nil =>
    cases h
    simpa using hs
  | cons t ts ih =>
    rw [List.foldlM_cons] at h
    obtain ⟨s₁, hstep, hrun⟩ := Option.bind_eq_some_iff.1 h
    simpa using ih (hs.step hstep) hrun

end

/-! ## Reading a value -/

/-- The tokens of a value start with one that starts a value. -/
theorem tokens_eq_cons (v : Value) :
    ∃ t ts, v.tokens = t :: ts ∧ t ≠ .closeArray := by
  cases v with
  | null | bool | number | string => exact ⟨_, _, rfl, nofun⟩
  | array items =>
    cases items <;> exact ⟨_, _, rfl, nofun⟩
  | object fields =>
    rcases fields with _ | ⟨⟨k, v⟩, fields⟩ <;> exact ⟨_, _, rfl, nofun⟩

/-- Where the end of an array may come, too, a value is read as where it must come. -/
theorem run_firstItem (v : Value) (outer : List Frame) (rest : List Token) :
    (v.tokens ++ rest).foldlM State.step (.firstItem outer) =
      (v.tokens ++ rest).foldlM State.step (.value (.array [] :: outer)) := by
  obtain ⟨t, ts, hv, ht⟩ := tokens_eq_cons v
  rw [hv, List.cons_append, List.foldlM_cons, List.foldlM_cons]
  congr 1
  cases t with
  | closeArray => exact absurd rfl ht
  | _ => rfl

mutual

/-- The tokens of a value take the reader from where a value must come to where it is complete. -/
theorem run_value : ∀ (v : Value) (outer : List Frame) (rest : List Token),
    (v.tokens ++ rest).foldlM State.step (.value outer) =
      rest.foldlM State.step (.complete v outer)
  | .null, outer, rest => rfl
  | .bool b, outer, rest => rfl
  | .number w, outer, rest => rfl
  | .string t, outer, rest => rfl
  | .array [], outer, rest => rfl
  | .array (v :: items), outer, rest => by
    have hopen : (Value.array (v :: items)).tokens ++ rest =
        .openArray :: (v.tokens ++ (moreItems items ++ .closeArray :: rest)) := by
      simp [Value.tokens]
    have hitems : (items.reverse ++ [v]).reverse = v :: items := by simp
    rw [hopen, List.foldlM_cons]
    show List.foldlM State.step (.firstItem outer) _ = _
    rw [run_firstItem, run_value v]
    show List.foldlM State.step (.afterItem [v] outer) _ = _
    rw [run_items items, List.foldlM_cons]
    show List.foldlM State.step (.complete (.array (items.reverse ++ [v]).reverse) outer) _ = _
    rw [hitems]
  | .object [], outer, rest => rfl
  | .object ((k, v) :: fields), outer, rest => by
    have hopen : (Value.object ((k, v) :: fields)).tokens ++ rest =
        .openObject :: .string k :: .colon ::
          (v.tokens ++ (moreFields fields ++ .closeObject :: rest)) := by
      simp [Value.tokens]
    have hfields : (fields.reverse ++ [(k, v)]).reverse = (k, v) :: fields := by simp
    rw [hopen, List.foldlM_cons]
    show List.foldlM State.step (.value (.object [] k :: outer)) _ = _
    rw [run_value v]
    show List.foldlM State.step (.afterField [(k, v)] outer) _ = _
    rw [run_fields fields, List.foldlM_cons]
    show List.foldlM State.step
      (.complete (.object (fields.reverse ++ [(k, v)]).reverse) outer) _ = _
    rw [hfields]

/-- The further items of an array take it from one complete item to the last. -/
theorem run_items : ∀ (items read : List Value) (outer : List Frame) (rest : List Token),
    (moreItems items ++ rest).foldlM State.step (.afterItem read outer) =
      rest.foldlM State.step (.afterItem (items.reverse ++ read) outer)
  | [], read, outer, rest => rfl
  | v :: items, read, outer, rest => by
    have hopen : moreItems (v :: items) ++ rest =
        .comma :: (v.tokens ++ (moreItems items ++ rest)) := by
      simp [moreItems]
    rw [hopen, List.foldlM_cons]
    show List.foldlM State.step (.value (.array read :: outer)) _ = _
    rw [run_value v]
    show List.foldlM State.step (.afterItem (v :: read) outer) _ = _
    rw [run_items items, List.reverse_cons, List.append_assoc, List.singleton_append]

/-- The further fields of an object take it from one complete field to the last. -/
theorem run_fields : ∀ (fields read : List (Text × Value)) (outer : List Frame) (rest : List Token),
    (moreFields fields ++ rest).foldlM State.step (.afterField read outer) =
      rest.foldlM State.step (.afterField (fields.reverse ++ read) outer)
  | [], read, outer, rest => rfl
  | (k, v) :: fields, read, outer, rest => by
    have hopen : moreFields ((k, v) :: fields) ++ rest =
        .comma :: .string k :: .colon :: (v.tokens ++ (moreFields fields ++ rest)) := by
      simp [moreFields]
    rw [hopen, List.foldlM_cons]
    show List.foldlM State.step (.value (.object read k :: outer)) _ = _
    rw [run_value v]
    show List.foldlM State.step (.afterField ((k, v) :: read) outer) _ = _
    rw [run_fields fields, List.reverse_cons, List.append_assoc, List.singleton_append]

end

/-- The reader accepts exactly the tokens of a value, and answers that value. -/
theorem ofTokens?_eq_some_iff {ts : List Token} {v : Value} :
    ofTokens? ts = some v ↔ ts = v.tokens := by
  constructor
  · intro h
    unfold ofTokens? at h
    split at h
    · rename_i w hrun
      cases h
      have hstart : (State.value []).Accounts [] := ⟨trivial, rfl⟩
      exact (hstart.run hrun).tokens.symm
    · cases h
  · rintro rfl
    have hrun := run_value v [] []
    rw [List.append_nil, List.foldlM_nil] at hrun
    rw [ofTokens?, hrun]
    rfl

end Reader

end Parley.Json
