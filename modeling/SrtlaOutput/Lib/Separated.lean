import Mathlib.Data.List.Basic
import Mathlib.Tactic.Common

/-! Lists of words in one text with a separator between them, where empty pieces count for
nothing when the text is read. -/

namespace Separated

variable {α : Type*} {sep : α}

/-! Writing. -/

def join (sep : α) (words : List (List α)) : List α :=
  words.foldl (fun text word => (if text.isEmpty then text else text ++ [sep]) ++ word) []

theorem foldl_join {text : List α} (htext : text ≠ []) (words : List (List α)) :
    words.foldl (fun text word => (if text.isEmpty then text else text ++ [sep]) ++ word) text =
      text ++ words.flatMap (sep :: ·) := by
  induction words generalizing text with
  | nil => simp
  | cons word words ih =>
    have hmore : text ++ [sep] ++ word ≠ [] := by simp
    rw [List.foldl_cons, if_neg (by simpa using htext), ih hmore, List.flatMap_cons]
    simp only [List.append_assoc, List.cons_append, List.nil_append]

theorem intercalate_cons (word : List α) (words : List (List α)) :
    [sep].intercalate (word :: words) = word ++ words.flatMap (sep :: ·) := by
  induction words generalizing word with
  | nil => simp
  | cons word' words ih =>
    rw [List.intercalate_cons_cons, ih, List.flatMap_cons]
    simp only [List.append_assoc, List.cons_append, List.nil_append]

theorem mem_intercalate {words : List (List α)} {a : α} (h : a ∈ [sep].intercalate words) :
    a = sep ∨ ∃ word ∈ words, a ∈ word := by
  rcases words with _ | ⟨word, words⟩
  · cases h
  · rw [intercalate_cons, List.mem_append, List.mem_flatMap] at h
    obtain hword | ⟨word', hword', ha⟩ := h
    · exact .inr ⟨word, List.mem_cons_self, hword⟩
    · rcases List.mem_cons.mp ha with heq | hmem
      · exact .inl heq
      · exact .inr ⟨word', List.mem_cons_of_mem word hword', hmem⟩

theorem join_eq {words : List (List α)} (hne : ∀ word ∈ words, word ≠ []) :
    join sep words = [sep].intercalate words := by
  rcases words with _ | ⟨word, words⟩
  · rfl
  · rw [join, List.foldl_cons, List.isEmpty_nil, if_pos rfl, List.nil_append,
      foldl_join (hne word List.mem_cons_self), intercalate_cons]

theorem prefix_of_prefix_cut {p front back : List α} (hp : sep ∉ p)
    (h : p <+: front ++ sep :: back) : p <+: front := by
  rcases Nat.lt_or_ge front.length p.length with hlonger | hshorter
  · exfalso
    apply hp
    have hwhole : front ++ [sep] <+: front ++ sep :: back := ⟨back, by simp⟩
    have hfront : front ++ [sep] <+: p := by
      apply List.prefix_of_prefix_length_le hwhole h
      rw [List.length_append]
      exact hlonger
    exact hfront.subset (by simp)
  · exact List.prefix_of_prefix_length_le h (List.prefix_append ..) hshorter

/-! Reading. -/

variable [DecidableEq α]

/-- The pieces between separators that are not empty. -/
def tokens (sep : α) (text : List α) : List (List α) := (text.splitOn sep).filter (· ≠ [])

theorem splitOn_cons_of_ne {a : α} (ha : a ≠ sep) {text first : List α} {rest : List (List α)}
    (hsplit : text.splitOn sep = first :: rest) :
    (a :: text).splitOn sep = (a :: first) :: rest := by
  rw [List.splitOn_cons_eq_if_modifyHead, if_neg (by simpa using ha), hsplit, List.modifyHead_cons]

theorem splitOn_append {front : List α} (h : sep ∉ front) {text first : List α}
    {rest : List (List α)} (hsplit : text.splitOn sep = first :: rest) :
    (front ++ text).splitOn sep = (front ++ first) :: rest := by
  induction front with
  | nil => exact hsplit
  | cons a front ih =>
    have hne : a ≠ sep := fun heq => h (heq ▸ List.mem_cons_self)
    exact splitOn_cons_of_ne hne (ih fun hmem => h (List.mem_cons_of_mem a hmem))

theorem not_mem_of_mem_splitOn {text piece : List α} (h : piece ∈ text.splitOn sep) :
    sep ∉ piece := by
  induction text generalizing piece with
  | nil =>
    rw [List.splitOn_nil, List.mem_singleton] at h
    simp [h]
  | cons a text ih =>
    obtain ⟨first, rest, hsplit⟩ := List.exists_cons_of_ne_nil (List.splitOn_ne_nil sep text)
    by_cases ha : a = sep
    · rw [ha, List.splitOn_cons_eq_if_modifyHead, if_pos (beq_self_eq_true sep)] at h
      rcases List.mem_cons.mp h with rfl | hrest
      · exact List.not_mem_nil
      · exact ih hrest
    · rw [splitOn_cons_of_ne ha hsplit] at h
      rw [hsplit] at ih
      rcases List.mem_cons.mp h with rfl | hrest
      · intro hmem
        rcases List.mem_cons.mp hmem with heq | hfirst
        · exact ha heq.symm
        · exact ih List.mem_cons_self hfirst
      · exact ih (List.mem_cons_of_mem first hrest)

theorem exists_back_of_splitOn {text front first : List α} {rest : List (List α)}
    (h : text.splitOn sep = (front ++ first) :: rest) :
    ∃ back, text = front ++ back ∧ back.splitOn sep = first :: rest := by
  have hpieces : ∀ piece ∈ (front ++ first) :: rest, sep ∉ piece :=
    fun piece hpiece => not_mem_of_mem_splitOn (h ▸ hpiece)
  refine ⟨[sep].intercalate (first :: rest), ?_, ?_⟩
  · have htext : [sep].intercalate (text.splitOn sep) = text := List.intercalate_splitOn sep
    rw [← htext, h, intercalate_cons, intercalate_cons, List.append_assoc]
  · apply List.splitOn_intercalate sep _ (List.cons_ne_nil first rest)
    intro piece hpiece hmem
    rcases List.mem_cons.mp hpiece with rfl | hrest
    · exact hpieces _ List.mem_cons_self (List.mem_append_right front hmem)
    · exact hpieces piece (List.mem_cons_of_mem _ hrest) hmem

theorem mem_tokens {text token : List α} :
    token ∈ tokens sep text ↔ token ∈ text.splitOn sep ∧ token ≠ [] := by
  simp [tokens]

theorem not_mem_of_mem_tokens {text token : List α} (h : token ∈ tokens sep text) : sep ∉ token :=
  not_mem_of_mem_splitOn (mem_tokens.mp h).1

theorem tokens_of_not_mem {text : List α} (h : sep ∉ text) :
    tokens sep text = if text = [] then [] else [text] := by
  rw [tokens, List.splitOn_eq_singleton h]
  split_ifs with hempty <;> simp [hempty]

theorem tokens_cut (front back : List α) :
    tokens sep (front ++ sep :: back) = tokens sep front ++ tokens sep back := by
  rw [tokens, List.splitOn_append_cons_self, List.filter_append, tokens, tokens]

theorem tokens_intercalate {words : List (List α)} (hne : ∀ word ∈ words, word ≠ [])
    (hsep : ∀ word ∈ words, sep ∉ word) : tokens sep ([sep].intercalate words) = words := by
  rcases words with _ | ⟨word, words⟩
  · simp [tokens]
  · rw [tokens, List.splitOn_intercalate sep hsep (by simp)]
    exact List.filter_eq_self.mpr fun w hw => decide_eq_true (hne w hw)

theorem tokens_intercalate_iff {words : List (List α)} (hne : ∀ word ∈ words, word ≠ []) :
    (∀ word, word ∈ tokens sep ([sep].intercalate words) ↔ word ∈ words) ↔
      ∀ word ∈ words, sep ∉ word := by
  constructor
  · intro h word hword
    exact not_mem_of_mem_tokens ((h word).mpr hword)
  · intro h word
    rw [tokens_intercalate hne h]

theorem tokens_append_same_iff {front : List α} (hne : front ≠ []) (hsep : sep ∉ front)
    {text first : List α} {rest : List (List α)} (hsplit : text.splitOn sep = first :: rest) :
    (∀ token, token ∈ tokens sep (front ++ text) ↔ token ∈ tokens sep text) ↔
      front ++ first ∈ rest ∧ (first = [] ∨ first ∈ rest) := by
  -- something before a text goes unnoticed only where the first piece is another one too, with
  -- and without it
  have hlonger : front ++ first ≠ first := by simpa using hne
  have hnonempty : front ++ first ≠ [] := by simp [hne]
  simp only [mem_tokens, splitOn_append hsep hsplit, hsplit, List.mem_cons]
  constructor
  · intro h
    constructor
    · have hfirst := (h (front ++ first)).mp ⟨.inl rfl, hnonempty⟩
      exact hfirst.1.resolve_left hlonger
    · by_cases hempty : first = []
      · exact .inl hempty
      · have hfirst := (h first).mpr ⟨.inl rfl, hempty⟩
        exact .inr (hfirst.1.resolve_left hlonger.symm)
  · rintro ⟨hlong, hshort⟩ token
    constructor
    · rintro ⟨rfl | hrest, htoken⟩
      · exact ⟨.inr hlong, htoken⟩
      · exact ⟨.inr hrest, htoken⟩
    · rintro ⟨rfl | hrest, htoken⟩
      · exact ⟨.inr (hshort.resolve_left htoken), htoken⟩
      · exact ⟨.inr hrest, htoken⟩

end Separated
