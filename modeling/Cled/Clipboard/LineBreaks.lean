import Mathlib.Data.List.Induction
import Cled.Clipboard.Content

/-!
# Text handed back by the operating system

Operating systems store line breaks their own way, and add or drop trailing
whitespace.  Text that Cled wrote comes back changed in these two ways, and
normalizing its line endings and trimming it undoes both.
-/

namespace Cled.Clipboard

/-! ## Ways to hand a text back -/

inductive LineBreak where
  | lf
  | crLf
  | cr
  deriving DecidableEq

def LineBreak.chars : LineBreak → List Char
  | .lf => ['\n']
  | .crLf => ['\r', '\n']
  | .cr => ['\r']

/-- Every line break of a normalized text written as `lineBreak`. -/
def LineBreak.rewrite (lineBreak : LineBreak) (chars : List Char) : List Char :=
  chars.flatMap fun char => if char = '\n' then lineBreak.chars else [char]

/-- `returned` is `written` with all its line breaks written in one way, and
with other whitespace at its end. -/
def HandedBack (written returned : String) : Prop :=
  ∃ (lineBreak : LineBreak) (body before after : List Char),
    lineBreak.rewrite written.toList = body ++ before ∧
      returned.toList = body ++ after ∧
      (∀ char ∈ before, isWhiteSpace char = true) ∧
      ∀ char ∈ after, isWhiteSpace char = true

theorem rdropWhile_append_of_all {body back : List Char}
    (hback : ∀ char ∈ back, isWhiteSpace char = true) :
    (body ++ back).rdropWhile isWhiteSpace = body.rdropWhile isWhiteSpace := by
  induction back using List.reverseRecOn with
  | nil => rw [List.append_nil]
  | append_singleton front char ih =>
      rw [← List.append_assoc, List.rdropWhile_concat_pos _ _ _
        (hback char (by simp))]
      exact ih fun other hother => hback other (by simp [hother])

/-! ## Normalizing -/

/-- What `normalizeLineEndings` does to the characters. -/
def normalize (chars : List Char) : List Char := replaceCr (replaceCrLf chars)

theorem replaceCrLf_eq_self {chars : List Char} (hcr : '\r' ∉ chars) :
    replaceCrLf chars = chars := by
  fun_induction replaceCrLf chars with
  | case1 rest ih => simp at hcr
  | case2 char rest _ ih =>
      rw [ih fun hmem => hcr (List.mem_cons_of_mem _ hmem)]
  | case3 => rfl

theorem replaceCr_eq_self {chars : List Char} (hcr : '\r' ∉ chars) :
    replaceCr chars = chars := by
  refine (List.map_congr_left fun char hchar => if_neg ?_).trans
    (List.map_id chars)
  rintro rfl
  exact hcr hchar

theorem toList_normalizeLineEndings (text : String) :
    (normalizeLineEndings text).toList = normalize text.toList := by
  rw [normalizeLineEndings, normalize]
  split
  · rw [String.toList_ofList]
  · next hcr => rw [replaceCrLf_eq_self hcr, replaceCr_eq_self hcr]

theorem normalize_crLf (rest : List Char) :
    normalize ('\r' :: '\n' :: rest) = '\n' :: normalize rest := rfl

theorem normalize_cons {char : Char} {rest : List Char}
    (hpair : char = '\r' → rest.head? ≠ some '\n') :
    normalize (char :: rest) =
      (if char = '\r' then '\n' else char) :: normalize rest := by
  have hcons : replaceCrLf (char :: rest) = char :: replaceCrLf rest := by
    rw [replaceCrLf]
    rintro tail rfl rfl
    exact hpair rfl rfl
  rw [normalize, hcons, replaceCr, List.map_cons]
  rfl

/-- Two parts of a text are normalized on their own, unless a `\r\n` was taken
apart. -/
theorem normalize_append {front back : List Char}
    (hpair : front.getLast? = some '\r' → back.head? ≠ some '\n') :
    normalize (front ++ back) = normalize front ++ normalize back := by
  fun_induction replaceCrLf front with
  | case1 rest ih =>
      have hrest : rest.getLast? = some '\r' → back.head? ≠ some '\n' := by
        intro hlast
        exact hpair (by simp [List.getLast?_cons, hlast])
      rw [List.cons_append, List.cons_append, normalize_crLf, normalize_crLf,
        ih hrest, List.cons_append]
  | case2 char rest hchar ih =>
      have hrest : rest.getLast? = some '\r' → back.head? ≠ some '\n' := by
        intro hlast
        exact hpair (by simp [List.getLast?_cons, hlast])
      have hhead : char = '\r' → rest.head? ≠ some '\n' := by
        intro hcr hlf
        obtain ⟨tail, htail⟩ := List.head?_eq_some_iff.mp hlf
        exact hchar tail hcr htail
      have happend : char = '\r' → (rest ++ back).head? ≠ some '\n' := by
        intro hcr
        cases rest with
        | nil => exact hpair (by rw [hcr]; rfl)
        | cons next tail => exact hhead hcr
      rw [List.cons_append, normalize_cons happend, normalize_cons hhead,
        ih hrest, List.cons_append]
  | case3 => rfl

theorem normalize_singleton (char : Char) :
    normalize [char] = [if char = '\r' then '\n' else char] :=
  normalize_cons (by simp)

theorem normalize_concat {front : List Char} {char : Char}
    (hchar : char ≠ '\n') :
    normalize (front ++ [char]) = normalize front ++ normalize [char] :=
  normalize_append fun _ heq => hchar (Option.some.inj heq)

/-- A line feed at the end is a line break of its own or ends one. -/
theorem normalize_concat_lf (front : List Char) :
    normalize (front ++ ['\n']) = normalize front ∨
      normalize (front ++ ['\n']) = normalize front ++ ['\n'] := by
  by_cases hlast : front.getLast? = some '\r'
  · obtain ⟨init, rfl⟩ := List.getLast?_eq_some_iff.mp hlast
    left
    have hapart : normalize (init ++ ['\r', '\n']) =
        normalize init ++ normalize ['\r', '\n'] := normalize_append (by simp)
    have htogether : normalize (init ++ ['\r']) =
        normalize init ++ normalize ['\r'] := normalize_concat (by decide)
    rw [List.append_assoc, htogether]
    exact hapart
  · exact .inr (normalize_append fun heq => absurd heq hlast)

/-- Normalizing and trimming can be done in either order. -/
theorem rdropWhile_normalize (chars : List Char) :
    (normalize chars).rdropWhile isWhiteSpace =
      normalize (chars.rdropWhile isWhiteSpace) := by
  induction chars using List.reverseRecOn with
  | nil => rfl
  | append_singleton front char ih =>
      by_cases hspace : isWhiteSpace char = true
      · rw [List.rdropWhile_concat_pos _ _ _ hspace, ← ih]
        by_cases hlf : char = '\n'
        · subst hlf
          rcases normalize_concat_lf front with hend | hend
          · rw [hend]
          · rw [hend, List.rdropWhile_concat_pos _ _ _ (by decide)]
        · have hbreak : isWhiteSpace (if char = '\r' then '\n' else char) =
              true := by
            split
            · rfl
            · exact hspace
          rw [normalize_concat hlf, normalize_singleton]
          exact List.rdropWhile_concat_pos _ _ _ hbreak
      · have hlf : char ≠ '\n' := by
          rintro rfl
          exact hspace (by decide)
        have hcr : char ≠ '\r' := by
          rintro rfl
          exact hspace (by decide)
        have hsame : normalize [char] = [char] := by
          rw [normalize_singleton, if_neg hcr]
        rw [normalize_concat hlf, hsame, List.rdropWhile_concat_neg _ _ _ hspace,
          List.rdropWhile_concat_neg _ _ _ hspace, normalize_concat hlf, hsame]

/-! ## Undoing what was done -/

theorem LineBreak.rewrite_cons (lineBreak : LineBreak) (char : Char)
    (rest : List Char) :
    lineBreak.rewrite (char :: rest) =
      (if char = '\n' then lineBreak.chars else [char]) ++
        lineBreak.rewrite rest := rfl

/-- No line feed is left that a carriage return could be joined with. -/
theorem LineBreak.head?_rewrite_cr (chars : List Char) :
    (LineBreak.cr.rewrite chars).head? ≠ some '\n' := by
  cases chars with
  | nil => simp [rewrite]
  | cons char rest =>
      rw [rewrite_cons]
      split
      · simp [LineBreak.chars]
      · next hlf => simpa using hlf

theorem LineBreak.normalize_rewrite (lineBreak : LineBreak) {chars : List Char}
    (hcr : '\r' ∉ chars) : normalize (lineBreak.rewrite chars) = chars := by
  induction chars with
  | nil => rfl
  | cons char rest ih =>
      have hhead : char ≠ '\r' := fun heq => hcr (by simp [heq])
      have hrest := ih fun hmem => hcr (List.mem_cons_of_mem _ hmem)
      rw [rewrite_cons]
      by_cases hlf : char = '\n'
      · rw [if_pos hlf, hlf]
        cases lineBreak with
        | lf =>
            rw [chars, List.singleton_append, normalize_cons (by simp), hrest,
              if_neg (by decide)]
        | crLf =>
            rw [chars, List.cons_append, List.singleton_append, normalize_crLf,
              hrest]
        | cr =>
            rw [chars, List.singleton_append,
              normalize_cons fun _ => head?_rewrite_cr rest, hrest, if_pos rfl]
      · rw [if_neg hlf, List.singleton_append,
          normalize_cons fun heq => absurd heq hhead, hrest, if_neg hhead]

/-- However a text is handed back, normalized and trimmed it is the text. -/
theorem trimEnd_of_handedBack {written returned : String}
    (hcr : '\r' ∉ written.toList) (hback : HandedBack written returned) :
    trimEnd (normalizeLineEndings returned) = trimEnd written := by
  obtain ⟨lineBreak, body, before, after, hwritten, hreturned, hbefore,
    hafter⟩ := hback
  rw [trimEnd, trimEnd, toList_normalizeLineEndings]
  congr 1
  calc (normalize returned.toList).rdropWhile isWhiteSpace
      = normalize (returned.toList.rdropWhile isWhiteSpace) :=
        rdropWhile_normalize _
    _ = normalize ((lineBreak.rewrite written.toList).rdropWhile isWhiteSpace) := by
        rw [hreturned, hwritten, rdropWhile_append_of_all hafter,
          rdropWhile_append_of_all hbefore]
    _ = (normalize (lineBreak.rewrite written.toList)).rdropWhile isWhiteSpace :=
        (rdropWhile_normalize _).symm
    _ = written.toList.rdropWhile isWhiteSpace := by
        rw [lineBreak.normalize_rewrite hcr]

end Cled.Clipboard
