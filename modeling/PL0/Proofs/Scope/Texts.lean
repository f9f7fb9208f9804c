import PL0.Proofs.Code.Fields
import PL0.Scope.Listing

/-!
# What the listing of a scope tells

The heading of a scope tells its kind, and the text behind a name tells all
that is known of the name but the column in which it was declared: the role and
the type of a variable, the types of the parameters of a function, and the
line.
-/

namespace PL0

namespace ValueType

theorem isField_text (type : ValueType) :
    IsField type.text ∧ type.text ≠ "" := by
  obtain ⟨_ | _⟩ | ⟨_ | _⟩ := type <;> decide

theorem text_injective {type other : ValueType}
    (same : type.text = other.text) : type = other := by
  revert same
  obtain ⟨_ | _⟩ | ⟨_ | _⟩ := type <;> obtain ⟨_ | _⟩ | ⟨_ | _⟩ :=
    other <;> decide

theorem intercalate_text_injective {types others : List ValueType}
    (same : ", ".intercalate (types.map text) =
      ", ".intercalate (others.map text)) :
    types = others := by
  have areFields (types : List ValueType) :
      ∀ field ∈ types.map text, IsField field ∧ field ≠ "" := by
    rw [List.forall_mem_map]
    exact fun type _ => type.isField_text
  have sameTexts := intercalate_inj (areFields types) (areFields others) same
  exact List.map_injective_iff.mpr (fun _ _ => text_injective) sameTexts

end ValueType

theorem ScopeKind.text_injective {kind other : ScopeKind}
    (same : kind.text = other.text) : kind = other := by
  have sameList := congrArg String.toList same
  cases kind with
  | global =>
      cases other with
      | global => rfl
      | function name => simp [text] at sameList
  | function name =>
      cases other with
      | global => simp [text] at sameList
      | function other =>
          have sameName : name.toList = other.toList := by
            simpa [text] using sameList
          rw [String.toList_injective sameName]

theorem VariableRole.text_injective {role other : VariableRole}
    (same : role.text = other.text) : role = other := by
  revert same
  cases role <;> cases other <;> decide

namespace Binding

/-- A binding without the column of its declaration. -/
def dropColumn : Binding → Binding
  | .function params position => .function params ⟨position.line, 0⟩
  | .var type role position => .var type role ⟨position.line, 0⟩

theorem function_text_ne_var_text {params : List ValueType} {type : ValueType}
    {role : VariableRole} {position position' : Position} :
    (function params position).text ≠ (var type role position').text := by
  intro same
  have sameHead := congrArg (fun text => text.toList.head?) same
  cases role <;> simp [text, VariableRole.text] at sameHead

theorem toString_line_inj {line other : Nat}
    (same : (toString line).toList = (toString other).toList) :
    line = other := by
  rw [Text.toList_toString_nat, Text.toList_toString_nat] at same
  exact Text.toDigits_injective same

theorem function_text_inj {params params' : List ValueType}
    {position position' : Position}
    (same : (function params position).text =
      (function params' position').text) :
    params = params' ∧ position.line = position'.line := by
  have notParenthesis (types : List ValueType) :
      ')' ∉ (", ".intercalate (types.map ValueType.text)).toList := by
    refine notMem_intercalate (by decide) ?_
    rw [List.forall_mem_map]
    exact fun type _ => type.isField_text.1.notMem (by decide)
  have sameList := congrArg String.toList same
  simp only [text, String.toList_append, List.append_assoc] at sameList
  -- The list of the types ends at the first closing parenthesis.
  obtain ⟨sameTypes, sameLines⟩ := Text.append_cons_inj (notParenthesis params)
    (notParenthesis params') (List.append_cancel_left sameList)
  have sameEnds : " -> int, line ".toList ++ (toString position.line).toList =
      " -> int, line ".toList ++ (toString position'.line).toList := sameLines
  exact ⟨ValueType.intercalate_text_injective
    (String.toList_injective sameTypes),
    toString_line_inj (List.append_cancel_left sameEnds)⟩

theorem var_text_inj {type type' : ValueType} {role role' : VariableRole}
    {position position' : Position}
    (same : (var type role position).text = (var type' role' position').text) :
    type = type' ∧ role = role' ∧ position.line = position'.line := by
  have isField (role : VariableRole) : IsField role.text := by
    cases role <;> decide
  have shaped :
      role.text ++ " " ++ (type.text ++ ", line " ++ toString position.line) =
      role'.text ++ " " ++
        (type'.text ++ ", line " ++ toString position'.line) := by
    simpa only [text, String.append_assoc] using same
  obtain ⟨sameRole, sameRest⟩ := (isField role).append_inj (isField role')
    (by decide : " ".toList.head? = some ' ') (by decide) shaped
  obtain ⟨sameType, sameLine⟩ :=
    type.isField_text.1.append_inj type'.isField_text.1
    (by decide : ", line ".toList.head? = some ',') (by decide) sameRest
  exact ⟨ValueType.text_injective sameType,
    VariableRole.text_injective sameRole,
    toString_line_inj (congrArg String.toList sameLine)⟩

/-- The text of a binding tells all but the column of its declaration. -/
theorem text_injective {binding other : Binding}
    (same : binding.text = other.text) :
    binding.dropColumn = other.dropColumn := by
  cases binding with
  | function params position =>
      cases other with
      | function params' position' =>
          obtain ⟨rfl, sameLine⟩ := function_text_inj same
          rw [dropColumn, dropColumn, sameLine]
      | var type role position' => exact absurd same function_text_ne_var_text
  | var type role position =>
      cases other with
      | function params position' =>
          exact absurd same.symm function_text_ne_var_text
      | var type' role' position' =>
          obtain ⟨rfl, rfl, sameLine⟩ := var_text_inj same
          rw [dropColumn, dropColumn, sameLine]

end Binding

end PL0
