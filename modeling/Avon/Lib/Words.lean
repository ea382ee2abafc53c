import Mathlib.Data.List.Basic

/-!
# Text as lines of words

`grid` is how a line-oriented language sees a text. A text that is made of whole lines is read line
by line, and a line that is put together from words with blanks gives these words.
-/

set_option autoImplicit false

namespace Avon.Lib.Words

def blank (c : Char) : Bool := c = ' ' || c = '\t'

def newline (c : Char) : Bool := c = '\n'

def words (line : List Char) : List String :=
  ((line.splitOnP blank).filter (· ≠ [])).map String.ofList

/-- The lines of a text that have words, each as its words. -/
def grid (text : String) : List (List String) :=
  ((text.toList.splitOnP newline).map words).filter (· ≠ [])

/-- A word: at least one character, and none that ends it. -/
structure IsWord (w : String) : Prop where
  ne_nil : w.toList ≠ []
  clear : ∀ c ∈ w.toList, blank c = false ∧ newline c = false

instance (w : String) : Decidable (IsWord w) :=
  -- By the characters of `w`, not by all there are.
  have : Decidable (∀ c ∈ w.toList, blank c = false ∧ newline c = false) :=
    List.decidableBAll _ _
  decidable_of_iff (w.toList ≠ [] ∧ ∀ c ∈ w.toList, blank c = false ∧ newline c = false)
    ⟨fun h => ⟨h.1, h.2⟩, fun h => ⟨h.1, h.2⟩⟩

theorem words_append (a b : List Char) : words (a ++ ' ' :: b) = words a ++ words b := by
  simp only [words, List.splitOnP_append_cons a b (show blank ' ' = true from rfl),
    List.filter_append, List.map_append]

theorem words_word {w : String} (hw : IsWord w) : words w.toList = [w] := by
  have hsplit : w.toList.splitOnP blank = [w.toList] :=
    List.splitOnP_eq_singleton fun c hc => (hw.clear c hc).1
  simp [words, hsplit, hw.ne_nil]

def spaced : List String → List Char
  | [] => []
  | [w] => w.toList
  | w :: v :: ws => w.toList ++ ' ' :: spaced (v :: ws)

def line (indent : ℕ) (ws : List String) : String :=
  String.ofList (List.replicate indent ' ' ++ spaced ws ++ ['\n'])

variable {ws : List String}

theorem words_spaced (h : ∀ w ∈ ws, IsWord w) : words (spaced ws) = ws := by
  induction ws with
  | nil => rfl
  | cons w ws ih =>
    obtain ⟨hw, hws⟩ := List.forall_mem_cons.mp h
    cases ws with
    | nil => exact words_word hw
    | cons v vs => rw [spaced, words_append, words_word hw, ih hws]; rfl

theorem words_replicate_append (n : ℕ) (cs : List Char) :
    words (List.replicate n ' ' ++ cs) = words cs := by
  induction n with
  | zero => rfl
  | succ n ih => rw [List.replicate_succ, List.cons_append, ← ih]; exact words_append [] _

theorem newline_spaced (h : ∀ w ∈ ws, IsWord w) : ∀ c ∈ spaced ws, newline c = false := by
  induction ws with
  | nil => simp [spaced]
  | cons w ws ih =>
    obtain ⟨hw, hws⟩ := List.forall_mem_cons.mp h
    have hwc : ∀ c ∈ w.toList, newline c = false := fun c hc => (hw.clear c hc).2
    cases ws with
    | nil => exact hwc
    | cons v vs =>
      rw [spaced, List.forall_mem_append, List.forall_mem_cons]
      exact ⟨hwc, rfl, ih hws⟩

def Lines (text : String) : Prop := text = "" ∨ ∃ l, text = l ++ "\n"

theorem Lines.append {a b : String} (ha : Lines a) (hb : Lines b) : Lines (a ++ b) := by
  rcases hb with rfl | ⟨l, rfl⟩
  · simpa using ha
  · exact .inr ⟨a ++ l, by rw [String.append_assoc]⟩

theorem grid_append {a : String} (ha : Lines a) (b : String) :
    grid (a ++ b) = grid a ++ grid b := by
  rcases ha with rfl | ⟨l, rfl⟩
  · rw [String.empty_append]
    rfl
  have hsplit : ∀ c : List Char, (l.toList ++ '\n' :: c).splitOnP newline =
      l.toList.splitOnP newline ++ c.splitOnP newline := fun c =>
    List.splitOnP_append_cons l.toList c rfl
  have hleft : (l ++ "\n" ++ b).toList = l.toList ++ '\n' :: b.toList := by simp
  have hright : (l ++ "\n").toList = l.toList ++ '\n' :: [] := by simp
  have hnil : (([] : List Char).splitOnP newline).map words = [[]] := rfl
  simp only [grid, hleft, hright, hsplit, List.map_append, List.filter_append, hnil]
  simp

theorem lines_line (indent : ℕ) (ws : List String) : Lines (line indent ws) :=
  .inr ⟨String.ofList (List.replicate indent ' ' ++ spaced ws), by
    apply String.toList_injective
    simp [line]⟩

theorem grid_line (indent : ℕ) (h : ∀ w ∈ ws, IsWord w) (hne : ws ≠ []) :
    grid (line indent ws) = [ws] := by
  have hclear : ∀ c ∈ List.replicate indent ' ' ++ spaced ws, newline c = false := by
    rw [List.forall_mem_append]
    refine ⟨fun c hc => ?_, newline_spaced h⟩
    rw [List.eq_of_mem_replicate hc]
    rfl
  have hsplit : (line indent ws).toList.splitOnP newline =
      [List.replicate indent ' ' ++ spaced ws, []] := by
    rw [line, String.toList_ofList, List.splitOnP_append_cons _ _ rfl,
      List.splitOnP_eq_singleton hclear]
    rfl
  have hnil : words [] = [] := rfl
  rw [grid, hsplit]
  simp only [List.map_cons, List.map_nil, hnil, words_replicate_append, words_spaced h]
  simp [hne]

theorem grid_join {α : Type*} {f : α → String} {ws : α → List String} {l : List α}
    (hlines : ∀ a ∈ l, Lines (f a)) (hgrid : ∀ a ∈ l, grid (f a) = [ws a]) :
    Lines (String.join (l.map f)) ∧ grid (String.join (l.map f)) = l.map ws := by
  induction l with
  | nil => exact ⟨.inl rfl, rfl⟩
  | cons a l ih =>
    obtain ⟨ha, hl⟩ := List.forall_mem_cons.mp hlines
    obtain ⟨hga, hgl⟩ := List.forall_mem_cons.mp hgrid
    obtain ⟨hjoin, heq⟩ := ih hl hgl
    have hcons : String.join ((a :: l).map f) = f a ++ String.join (l.map f) := by
      simp [String.join_cons]
    rw [hcons]
    exact ⟨ha.append hjoin, by rw [grid_append ha, hga, heq]; rfl⟩

end Avon.Lib.Words
