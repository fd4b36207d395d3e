/-
Identifiers of remote resources: atoms, sockets, connections and messages. An identifier is a text
of any content, ordered by code point. Main statements: the order is strict and total, and which
identifiers are sockets of an atom.
-/
import Parley.Text.Blank

namespace Parley

/-- The identifier of a remote resource. -/
structure Uri where
  text : String
  deriving DecidableEq

namespace Uri

instance : Inhabited Uri := ⟨⟨""⟩⟩

instance : LT Uri := ⟨fun a b => a.text < b.text⟩

instance decidableLt (a b : Uri) : Decidable (a < b) :=
  inferInstanceAs (Decidable (a.text < b.text))

theorem ext_text {a b : Uri} (h : a.text = b.text) : a = b := by
  cases a; cases b; exact congrArg Uri.mk h

theorem lt_irrefl (a : Uri) : ¬ a < a := String.lt_irrefl a.text

theorem lt_trans {a b c : Uri} (h : a < b) (h' : b < c) : a < c := String.lt_trans h h'

theorem lt_asymm {a b : Uri} (h : a < b) : ¬ b < a := String.lt_asymm h

theorem ne_of_lt {a b : Uri} (h : a < b) : a ≠ b := fun e => lt_irrefl b (e ▸ h)

/-- Two identifiers neither of which precedes the other are equal. -/
theorem eq_of_not_lt {a b : Uri} (h : ¬ a < b) (h' : ¬ b < a) : a = b :=
  ext_text (String.le_antisymm (String.not_lt.1 h') (String.not_lt.1 h))

theorem not_lt_trans {a b c : Uri} (h : ¬ b < a) (h' : ¬ c < b) : ¬ c < a := by
  intro hca
  by_cases hab : a < b
  · exact h' (lt_trans hca hab)
  · rw [eq_of_not_lt hab h] at hca
    exact h' hca

theorem not_lt_total (a b : Uri) : ¬ b < a ∨ ¬ a < b := by
  by_cases hab : a < b
  · exact Or.inl (lt_asymm hab)
  · exact Or.inr hab

/-- Blank identifiers are never indexed. -/
def isBlank (u : Uri) : Bool :=
  Text.isBlank u.text

/-- The atom a socket belongs to: a socket is addressed as `atom#name`, and an identifier whose
part before or after its first number sign is empty addresses no socket. -/
def atom? (u : Uri) : Option Uri :=
  match u.text.toList.takeWhile (· != '#'), u.text.toList.dropWhile (· != '#') with
  | c :: cs, _ :: _ :: _ => some ⟨String.ofList (c :: cs)⟩
  | _, _ => none

/-- An identifier belongs to an atom exactly when it is the atom, a number sign and a name, where
neither the atom nor the name is empty and the atom holds no number sign. -/
theorem atom?_eq_some_iff {u a : Uri} :
    u.atom? = some a ↔
      a.text.toList ≠ [] ∧ '#' ∉ a.text.toList ∧
        ∃ name, name ≠ [] ∧ u.text.toList = a.text.toList ++ '#' :: name := by
  unfold atom?
  constructor
  · intro h
    have hsplit := List.takeWhile_append_dropWhile (p := (· != '#')) (l := u.text.toList)
    have htake := List.all_takeWhile (p := (· != '#')) (l := u.text.toList)
    have hdrop := List.head?_dropWhile_not (· != '#') u.text.toList
    split at h
    · rename_i c cs d e r hc hd
      cases h
      rw [hc, hd] at hsplit
      rw [hc] at htake
      rw [hd] at hdrop
      have hd' : d = '#' := by simpa using hdrop
      rw [String.toList_ofList]
      refine ⟨List.cons_ne_nil _ _, fun hm => ?_, e :: r, List.cons_ne_nil _ _, ?_⟩
      · simpa using List.all_eq_true.1 htake _ hm
      · rw [← hsplit, hd']
    · cases h
  · rintro ⟨hne, hm, name, hname, hu⟩
    have hall : ∀ c ∈ a.text.toList, (c != '#') = true := fun c hc => by
      simpa using fun e : c = '#' => hm (e ▸ hc)
    rw [hu, List.takeWhile_append_of_pos hall, List.dropWhile_append_of_pos hall]
    cases ha : a.text.toList with
    | nil => exact absurd ha hne
    | cons c cs =>
      cases name with
      | nil => exact absurd rfl hname
      | cons d ds =>
        simp only [bne_self_eq_false, Bool.false_eq_true, not_false_eq_true,
          List.takeWhile_cons_of_neg, List.append_nil, List.dropWhile_cons_of_neg]
        rw [← ha, String.ofList_toList]

/-- The identifier, unless it is blank. -/
def nonBlank? (u : Uri) : Option Uri :=
  if u.isBlank then none else some u

theorem nonBlank?_eq_some_iff {u v : Uri} : u.nonBlank? = some v ↔ u = v ∧ u.isBlank = false := by
  unfold nonBlank?
  cases u.isBlank <;> simp

end Uri

end Parley
