import Mathlib.Data.List.Infix
import Mathlib.Data.List.TakeWhile
import SecureChat.Csv
/-!
# PosixPath — where a path leads

The system reads a path up to its first NUL and follows it name by name from the root: an empty name and `.` stay where
they are, `..` goes up.  There are no symbolic links here, so where a path leads is what its text says (`resolve`), and
creating it with its parents makes the directories it leads through (`trail`).
-/
namespace SecureChat
namespace PosixPath

abbrev Name := List Char

abbrev Place := List Name

def dot : Name := ['.']

def dotDot : Name := ['.', '.']

def enter (p : Place) (n : Name) : Place :=
  if n = [] ∨ n = dot then p
  else if n = dotDot then p.dropLast
  else p ++ [n]

def follow (p : Place) (ns : List Name) : Place := ns.foldl enter p

def beforeNul (text : List Char) : List Char := text.takeWhile fun c => decide (c ≠ '\x00')

def names (text : String) : List Name := (beforeNul text.toList).splitOn '/'

def resolve (text : String) : Place := follow [] (names text)

def trail (text : String) : List Place := (names text).inits.map (follow [])

def Below (d p : Place) : Prop := d <+: p ∧ d ≠ p

instance (d p : Place) : Decidable (Below d p) := inferInstanceAs (Decidable (_ ∧ _))

structure Plain (n : Name) : Prop where
  ne_nil : n ≠ []
  ne_dot : n ≠ dot
  ne_dotDot : n ≠ dotDot
  no_slash : ¬ '/' ∈ n
  no_nul : ¬ '\x00' ∈ n

def child (directory name : String) : String := directory ++ "/" ++ name

variable {p d : Place} {n : Name} {ns ns' : List Name} {a b : String}

theorem follow_append : follow p (ns ++ ns') = follow (follow p ns) ns' := List.foldl_append

theorem enter_of_ne (h0 : n ≠ []) (h1 : n ≠ dot) (h2 : n ≠ dotDot) : enter p n = p ++ [n] := by
  rw [enter, if_neg (not_or.2 ⟨h0, h1⟩), if_neg h2]

theorem Plain.enter (h : Plain n) : enter p n = p ++ [n] := enter_of_ne h.ne_nil h.ne_dot h.ne_dotDot

theorem beforeNul_cons_of_ne {c : Char} {text : List Char} (h : c ≠ '\x00') : beforeNul (c :: text) = c ::
    beforeNul text :=
  List.takeWhile_cons_of_pos (decide_eq_true h)

theorem beforeNul_of_not_mem {text : List Char} (h : ¬ '\x00' ∈ text) : beforeNul text = text :=
  List.takeWhile_eq_self_iff.2 fun _ hc => decide_eq_true fun he => h (he ▸ hc)

theorem beforeNul_append_of_not_mem {s t : List Char} (h : ¬ '\x00' ∈ s) : beforeNul (s ++ t) = s ++ beforeNul t :=
  List.takeWhile_append_of_pos fun _ hc => decide_eq_true fun he => h (he ▸ hc)

theorem toList_child : (child a b).toList = a.toList ++ '/' :: b.toList := by
  rw [child, String.toList_append, String.toList_append, List.append_assoc]
  rfl

theorem names_child (ha : ¬ '\x00' ∈ a.toList) : names (child a b) = names a ++ names b := by
  have hcut : beforeNul (child a b).toList = a.toList ++ '/' :: beforeNul b.toList := by
    rw [toList_child, beforeNul_append_of_not_mem ha]
    rfl
  rw [names, hcut, List.splitOn_append_cons_self, names, names, beforeNul_of_not_mem ha]

theorem resolve_child (ha : ¬ '\x00' ∈ a.toList) : resolve (child a b) = follow (resolve a) (names b) := by
  rw [resolve, names_child ha, follow_append, resolve]

theorem mem_trail : p ∈ trail a ↔ ∃ ns, ns <+: names a ∧ follow [] ns = p := by
  rw [trail, List.mem_map]
  simp only [List.mem_inits]

theorem mem_trail_child (ha : ¬ '\x00' ∈ a.toList) :
    p ∈ trail (child a b) ↔ p ∈ trail a ∨ ∃ ns, ns <+: names b ∧ follow (resolve a) ns = p := by
  rw [mem_trail, mem_trail, names_child ha]
  constructor
  · rintro ⟨ns, hns, rfl⟩
    rcases List.prefix_or_prefix_of_prefix hns (List.prefix_append _ _) with h | ⟨t, rfl⟩
    · exact .inl ⟨ns, h, rfl⟩
    · exact .inr ⟨t, (List.prefix_append_right_inj _).1 hns, follow_append.symm⟩
  · rintro (⟨ns, hns, rfl⟩ | ⟨ns, hns, rfl⟩)
    · exact ⟨ns, hns.trans (List.prefix_append _ _), rfl⟩
    · exact ⟨names a ++ ns, (List.prefix_append_right_inj _).2 hns, follow_append⟩

theorem names_plain (h : Plain b.toList) : names b = [b.toList] := by
  rw [names, beforeNul_of_not_mem h.no_nul, List.splitOn_eq_singleton h.no_slash]

theorem resolve_child_plain (ha : ¬ '\x00' ∈ a.toList) (hb : Plain b.toList) :
    resolve (child a b) = resolve a ++ [b.toList] := by
  rw [resolve_child ha, names_plain hb]
  exact hb.enter

theorem below_snoc : Below d (p ++ [n]) ↔ d <+: p := by
  constructor
  · rintro ⟨hpre, hne⟩
    rcases List.prefix_concat_iff.1 hpre with h | h
    · exact absurd h hne
    · exact h
  · intro h
    refine ⟨h.trans (List.prefix_append _ _), fun he => ?_⟩
    have hlen := h.length_le
    rw [he, List.length_append, List.length_singleton] at hlen
    omega

theorem Below.append (h : Below d p) (l : Place) : Below d (p ++ l) := by
  refine ⟨h.1.trans (List.prefix_append _ _), fun he => h.2 ?_⟩
  exact h.1.eq_of_length_le (he ▸ (List.prefix_append p l).length_le)

theorem splitOn_append {s : List Char} (hs : ¬ '/' ∈ s) : ∀ text : List Char, ∃ ns n,
    text.splitOn '/' = ns ++ [n] ∧ (text ++ s).splitOn '/' = ns ++ [n ++ s]
  | [] => ⟨[], [], rfl, List.splitOn_eq_singleton hs⟩
  | c :: text => by
    obtain ⟨ns, n, htext, happend⟩ := splitOn_append hs text
    rw [List.cons_append, List.splitOn_cons_eq_if_modifyHead, List.splitOn_cons_eq_if_modifyHead, htext, happend]
    split
    · exact ⟨[] :: ns, n, rfl, rfl⟩
    · cases ns with
      | nil => exact ⟨[], c :: n, rfl, rfl⟩
      | cons q ns => exact ⟨(c :: q) :: ns, n, rfl, rfl⟩

/-- What is appended to a name that ends a path makes a file in the directory the path leads to before it. -/
theorem follow_names_append (p : Place) (ha : ¬ '\x00' ∈ a.toList) : ∃ ns n, ∀ s : String, ¬ '/' ∈ s.toList →
    ¬ '\x00' ∈ s.toList → 3 ≤ s.toList.length → follow p (names (a ++ s)) = follow p ns ++ [n ++ s.toList] := by
  obtain ⟨ns, n, hsplit, -⟩ := splitOn_append (s := []) List.not_mem_nil a.toList
  refine ⟨ns, n, fun s hslash hnul hlen => ?_⟩
  obtain ⟨ns', n', hsplit', happend⟩ := splitOn_append hslash a.toList
  obtain ⟨rfl, hn⟩ := List.append_inj' (hsplit.symm.trans hsplit') rfl
  obtain rfl : n = n' := List.head_eq_of_cons_eq hn
  have hcut : beforeNul (a ++ s).toList = a.toList ++ s.toList := by
    rw [String.toList_append, beforeNul_append_of_not_mem ha, beforeNul_of_not_mem hnul]
  have hlong : 3 ≤ (n ++ s.toList).length := by
    rw [List.length_append]
    omega
  rw [names, hcut, happend, follow_append]
  refine enter_of_ne (fun h => ?_) (fun h => ?_) fun h => ?_ <;> rw [h] at hlong <;> exact absurd hlong (by decide)

theorem names_append_of_nul {s : String} (ha : '\x00' ∈ a.toList) : names (a ++ s) = names a := by
  have hcut : ∀ l t : List Char, '\x00' ∈ l → beforeNul (l ++ t) = beforeNul l := by
    intro l t hl
    induction l with
    | nil => cases hl
    | cons c l ih =>
      by_cases hc : c = '\x00'
      · subst hc
        rfl
      · have hmem : '\x00' ∈ l := (List.mem_cons.1 hl).resolve_left (Ne.symm hc)
        rw [List.cons_append, beforeNul_cons_of_ne hc, beforeNul_cons_of_ne hc, ih hmem]
  rw [names, names, String.toList_append, hcut _ _ ha]

end PosixPath
end SecureChat
