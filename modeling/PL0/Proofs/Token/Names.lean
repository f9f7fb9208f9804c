import PL0.Proofs.Binary64.Text
import PL0.Token.Scan

/-!
# What scanned tokens hold

An identifier that was scanned is a name: a letter followed by letters, digits
and underscores.  A number with a point that was scanned is not negative.
-/

namespace PL0

/-- A letter followed by letters, digits and underscores. -/
structure IsName (name : String) : Prop where
  head : ∃ first, name.toList.head? = some first ∧ first.isAlpha = true
  characters : ∀ c ∈ name.toList, Scan.isWordChar c = true

/-- What the scanner can put into a token. -/
def Token.Kind.IsScanned : Token.Kind → Prop
  | .identifier name => IsName name
  | .float value => value.IsNonNegative
  | _ => True

/-- All of these can be put into tokens by the scanner. -/
def AreScanned (kinds : List Token.Kind) : Prop :=
  ∀ kind ∈ kinds, kind.IsScanned

theorem areScanned_cons {kind : Token.Kind} {others : List Token.Kind} :
    AreScanned (kind :: others) ↔ kind.IsScanned ∧ AreScanned others :=
  List.forall_mem_cons

theorem areScanned_append {first second : List Token.Kind} :
    AreScanned (first ++ second) ↔ AreScanned first ∧ AreScanned second :=
  List.forall_mem_append

namespace Scan

theorem isWordChar_of_isAlpha {c : Char} (isAlpha : c.isAlpha = true) :
    isWordChar c = true := by
  simp [isWordChar, Char.isAlphanum, isAlpha]

theorem word_isScanned {c : Char} (isAlpha : c.isAlpha = true)
    (text : Located) : (word c text).1.IsScanned := by
  rw [word]
  cases Keyword.ofSpelling?
    (String.ofList (c :: (text.takeWhile isWordCharAt).map Prod.fst)) with
  | some keyword => trivial
  | none =>
      constructor
      · exact ⟨c, by simp, isAlpha⟩
      · rw [String.toList_ofList, List.forall_mem_cons, List.forall_mem_map]
        refine ⟨isWordChar_of_isAlpha isAlpha, ?_⟩
        intro located member
        exact List.mem_takeWhile_imp (p := isWordCharAt) member

theorem integer_isScanned {start : Position} {digits : List Char}
    {kind : Token.Kind} {tail rest : Located}
    (read : (integer start digits).map (fun kind => (kind, tail)) =
      .ok (kind, rest)) :
    kind.IsScanned := by
  rw [integer] at read
  split at read
  · cases read
    trivial
  · cases read

theorem fraction_isScanned {start : Position} {whole : List Char}
    {text rest : Located} {kind : Token.Kind}
    (read : fraction start whole text = .ok (kind, rest)) :
    kind.IsScanned := by
  unfold fraction at read
  split at read
  · split at read
    · exact integer_isScanned read
    · cases read
      exact Binary64.isNonNegative_ofDecimal _ _
  · exact integer_isScanned read

/-- A token holds what the scanner can put into it. -/
theorem token_isScanned {stop start : Position} {c : Char} {text rest : Located}
    {kind : Token.Kind} (read : token stop c start text = .ok (kind, rest)) :
    kind.IsScanned := by
  rw [token] at read
  split at read
  · next isAlpha =>
    cases read
    exact word_isScanned isAlpha text
  split at read
  · exact fraction_isScanned read
  split at read
  · cases body : stringBody start stop text with
    | error => simp [body, Except.map] at read
    | ok found =>
      simp only [body, Except.map, Except.ok.injEq, Prod.mk.injEq] at read
      rw [← read.1]
      trivial
  · rw [symbol] at read
    split at read
    · cases read
      trivial
    · cases read
      trivial
    · cases read

theorem tokens_isScanned {stop : Position} {text : Located} {found : List Token}
    (scanned : tokens stop text = .ok found) :
    ∀ token ∈ found, token.kind.IsScanned := by
  fun_induction tokens stop text generalizing found with
  | case1 => cases scanned
  | case2 =>
      cases scanned
      simp [Token.Kind.IsScanned]
  | case3 => cases scanned
  | case4 text c start rest skipped kind after read induction =>
      cases others : tokens stop after with
      | error => simp [others, Except.map] at scanned
      | ok tail =>
          simp only [others, Except.map, Except.ok.injEq] at scanned
          rw [← scanned, List.forall_mem_cons]
          exact ⟨token_isScanned read, induction others⟩

end Scan

theorem scan_isScanned {source : String} {tokens : List Token}
    (scanned : scan source = .ok tokens) :
    ∀ token ∈ tokens, token.kind.IsScanned :=
  Scan.tokens_isScanned scanned

end PL0
