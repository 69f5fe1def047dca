import MentionAlign.Tree.Bracketed
import Mathlib.Data.List.Forall2

/-!
# Derivations of the bracket notation

The notation has one nonterminal with two productions,

    N ::= '(' label word ')' | '(' label N+ ')'

and a derivation records which production stands where.  Its yield is a row of lexeme kinds, its
words are read from left to right, and `Derivation.Mirrors` says what a tree must look like to be
the tree that a derivation describes.  A phrase always has a first child, so the `+` of the second
production cannot be missed; that a phrase has at most one starred child is the separate condition
`Derivation.SingleHeaded`, since the productions alone do not ask for it.
-/

namespace MentionAlign

namespace Bracketed

/-- One tree of the notation. -/
inductive Derivation
  | terminal (label word : List Char)
  | phrase (label : List Char) (first : Derivation) (rest : List Derivation)

namespace Derivation

/-- The label as it is written. -/
def label : Derivation → List Char
  | terminal label _ => label
  | phrase label _ _ => label

/-- A label that ends in a star marks the head child of the phrase around it. -/
def starred (d : Derivation) : Bool := d.label.getLast? == some '*'

/-- The label without one star at its end. -/
def bareLabel (d : Derivation) : String :=
  String.ofList (if d.starred then d.label.dropLast else d.label)

mutual

/-- The row of lexeme kinds that a derivation yields. -/
def kinds : Derivation → List LexemeKind
  | terminal label word => [.opening, .word label, .word word, .closing]
  | phrase label first rest =>
      .opening :: .word label :: (first.kinds ++ kindsAmong rest ++ [.closing])

/-- The rows of several derivations, one behind the other. -/
def kindsAmong : List Derivation → List LexemeKind
  | [] => []
  | d :: ds => d.kinds ++ kindsAmong ds

end

mutual

/-- The words in reading order. -/
def words : Derivation → List (List Char)
  | terminal _ word => [word]
  | phrase _ first rest => first.words ++ wordsAmong rest

/-- The words of several derivations. -/
def wordsAmong : List Derivation → List (List Char)
  | [] => []
  | d :: ds => d.words ++ wordsAmong ds

end

/-- No phrase has more than one starred child. -/
inductive SingleHeaded : Derivation → Prop
  | terminal (label word : List Char) : SingleHeaded (.terminal label word)
  | phrase {label : List Char} {first : Derivation} {rest : List Derivation}
      (heads : (first :: rest).countP starred ≤ 1)
      (inner : ∀ d ∈ first :: rest, SingleHeaded d) :
      SingleHeaded (.phrase label first rest)

/-- A tree is the one that a derivation describes: labels without their star, a terminal for each
word, the children in order, and the starred child for the head.  Spans are left open. -/
inductive Mirrors : Derivation → Node → Prop
  | terminal {label word : List Char} {token : Token}
      (text : token.text = String.ofList word) :
      Mirrors (.terminal label word)
        { label := (Derivation.terminal label word).bareLabel, span := token.span,
          children := [], headChild := none, token := some token }
  | phrase {label : List Char} {first : Derivation} {rest : List Derivation} {span : Span}
      {children : List Node}
      (inner : List.Forall₂ Mirrors (first :: rest) children) :
      Mirrors (.phrase label first rest)
        { label := (Derivation.phrase label first rest).bareLabel, span, children,
          headChild := (first :: rest).findIdx? starred, token := none }

/-- What holds of a terminal, and of a phrase when it holds of all children, holds of every
derivation. -/
@[elab_as_elim]
theorem inductionOnChildren {motive : Derivation → Prop}
    (terminal : ∀ label word, motive (.terminal label word))
    (phrase : ∀ label first rest, (∀ d ∈ first :: rest, motive d) →
      motive (.phrase label first rest)) :
    ∀ d, motive d
  | .terminal label word => terminal label word
  | .phrase label first rest => phrase label first rest fun d hd =>
      have : sizeOf d < sizeOf (Derivation.phrase label first rest) := by
        rcases List.mem_cons.mp hd with rfl | hd
        · simp only [Derivation.phrase.sizeOf_spec]
          omega
        · have := List.sizeOf_lt_of_mem hd
          simp only [Derivation.phrase.sizeOf_spec]
          omega
      inductionOnChildren terminal phrase d
termination_by d => sizeOf d

@[simp] theorem kinds_phrase (label : List Char) (first : Derivation) (rest : List Derivation) :
    (phrase label first rest).kinds =
      .opening :: .word label :: (kindsAmong (first :: rest) ++ [.closing]) := by
  rw [kinds, kindsAmong]

@[simp] theorem words_phrase (label : List Char) (first : Derivation) (rest : List Derivation) :
    (phrase label first rest).words = wordsAmong (first :: rest) := by
  rw [words, wordsAmong]

/-- A row of several derivations is read one derivation after the other. -/
theorem kindsAmong_append (before after : List Derivation) :
    kindsAmong (before ++ after) = kindsAmong before ++ kindsAmong after := by
  induction before with
  | nil => rfl
  | cons d ds ih => rw [List.cons_append, kindsAmong, kindsAmong, ih, List.append_assoc]

/-- Every row of kinds begins with a parenthesis. -/
theorem kinds_eq_opening_cons (d : Derivation) : ∃ ks, d.kinds = .opening :: ks := by
  cases d with
  | terminal label word => exact ⟨_, rfl⟩
  | phrase label first rest => exact ⟨_, kinds_phrase label first rest⟩

/-- Derivations that stand before a closing parenthesis are told apart by their row, when each of
them is. -/
theorem kindsAmong_inj {ds : List Derivation} {ks ks' : List LexemeKind}
    (hinj : ∀ d ∈ ds, ∀ (e : Derivation) (ks ks' : List LexemeKind),
      d.kinds ++ ks = e.kinds ++ ks' → d = e ∧ ks = ks') :
    ∀ {es : List Derivation},
      kindsAmong ds ++ .closing :: ks = kindsAmong es ++ .closing :: ks' → ds = es ∧ ks = ks' := by
  induction ds with
  | nil =>
      intro es h
      cases es with
      | nil => exact ⟨rfl, by simpa [kindsAmong] using h⟩
      | cons e es =>
          obtain ⟨rest, hrest⟩ := e.kinds_eq_opening_cons
          simp [kindsAmong, hrest] at h
  | cons d ds ih =>
      intro es h
      cases es with
      | nil =>
          obtain ⟨rest, hrest⟩ := d.kinds_eq_opening_cons
          simp [kindsAmong, hrest] at h
      | cons e es =>
          rw [kindsAmong, kindsAmong, List.append_assoc, List.append_assoc] at h
          obtain ⟨rfl, hothers⟩ := hinj d List.mem_cons_self e _ _ h
          obtain ⟨rfl, hks⟩ := ih (fun c hc => hinj c (List.mem_cons_of_mem _ hc)) hothers
          exact ⟨rfl, hks⟩

/-- **The notation is unambiguous.**  No derivation's row can be read on into another one's. -/
theorem kinds_append_inj (d : Derivation) :
    ∀ (e : Derivation) (ks ks' : List LexemeKind),
      d.kinds ++ ks = e.kinds ++ ks' → d = e ∧ ks = ks' := by
  induction d using inductionOnChildren with
  | terminal label word =>
      intro e ks ks' h
      cases e with
      | terminal label' word' => simpa [kinds, and_assoc] using h
      | phrase label' first rest =>
          -- the third lexeme is a word here and a parenthesis there
          obtain ⟨inner, hinner⟩ := first.kinds_eq_opening_cons
          simp [kinds, hinner] at h
  | phrase label first rest ih =>
      intro e ks ks' h
      cases e with
      | terminal label' word' =>
          obtain ⟨inner, hinner⟩ := first.kinds_eq_opening_cons
          simp [kinds, hinner] at h
      | phrase label' first' rest' =>
          simp only [kinds_phrase, List.cons_append, List.append_assoc, List.nil_append,
            List.cons.injEq, LexemeKind.word.injEq, true_and] at h
          obtain ⟨rfl, hrow⟩ := h
          obtain ⟨hchildren, hks⟩ := kindsAmong_inj ih hrow
          obtain ⟨rfl, rfl⟩ := List.cons.inj hchildren
          exact ⟨rfl, hks⟩

theorem kinds_injective {d e : Derivation} (h : d.kinds = e.kinds) : d = e :=
  (kinds_append_inj d e [] [] (by rw [h])).1

/-- A derivation has a word. -/
theorem words_ne_nil (d : Derivation) : d.words ≠ [] := by
  induction d using inductionOnChildren with
  | terminal label word => simp [words]
  | phrase label first rest ih => simp [wordsAmong, ih first List.mem_cons_self]

/-- Each word of a derivation stands in its yield. -/
theorem word_mem_kinds (d : Derivation) :
    ∀ word ∈ d.words, LexemeKind.word word ∈ d.kinds := by
  induction d using inductionOnChildren with
  | terminal label word =>
      intro w hw
      have hw : w = word := by simpa [words] using hw
      simp [hw, kinds]
  | phrase label first rest ih =>
      have among : ∀ ds : List Derivation, (∀ d ∈ ds, d ∈ first :: rest) →
          ∀ w ∈ wordsAmong ds, LexemeKind.word w ∈ kindsAmong ds := by
        intro ds hds
        induction ds with
        | nil => simp [wordsAmong]
        | cons d ds ihds =>
            intro w hw
            rw [wordsAmong, List.mem_append] at hw
            rw [kindsAmong, List.mem_append]
            rcases hw with hw | hw
            · exact Or.inl (ih d (hds d List.mem_cons_self) w hw)
            · exact Or.inr (ihds (fun e he => hds e (List.mem_cons_of_mem _ he)) w hw)
      intro w hw
      rw [words_phrase] at hw
      rw [kinds_phrase]
      have := among _ (fun d hd => hd) w hw
      simp [this]

end Derivation

end Bracketed

end MentionAlign
