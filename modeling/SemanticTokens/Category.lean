/-!
# Highlighting categories

A token carries one of six categories.  Three vocabularies name them: the
index that travels in an encoded stream, the name advertised to clients, and
the kind string that an analyzer reports.  The order of `Category.all` fixes
the indices.
-/

namespace SemanticTokens

/-- Highlighting class of a token. -/
inductive Category where
  | variableName
  | keywordName
  | moduleName
  | functionName
  | className
  | parameterName
  deriving DecidableEq, Repr

namespace Category

/-- Every category, in the order of the stream indices. -/
def all : List Category :=
  [.variableName, .keywordName, .moduleName, .functionName, .className, .parameterName]

def index : Category → UInt32
  | .variableName => 0
  | .keywordName => 1
  | .moduleName => 2
  | .functionName => 3
  | .className => 4
  | .parameterName => 5

def ofIndex? (index : UInt32) : Option Category :=
  all[index.toNat]?

/-- Name advertised in the legend. -/
def name : Category → String
  | .variableName => "variable"
  | .keywordName => "keyword"
  | .moduleName => "module"
  | .functionName => "function"
  | .className => "class"
  | .parameterName => "parameter"

/-- The category that an analyzer kind stands for.

The analyzer vocabulary is open, so most kinds have none.  A parameter is
reported as `param`, unlike its advertised name. -/
def ofKind? : String → Option Category
  | "variable" => some .variableName
  | "keyword" => some .keywordName
  | "module" => some .moduleName
  | "function" => some .functionName
  | "class" => some .className
  | "param" => some .parameterName
  | _ => none

@[simp]
theorem ofIndex?_index (category : Category) :
    ofIndex? category.index = some category := by
  cases category <;> rfl

/-- Every number below six is the index of a category. -/
theorem exists_index_eq
    {index : UInt32} (bound : index < 6) :
    ∃ category : Category, category.index = index := by
  have small : index.toNat < 6 := UInt32.lt_iff_toNat_lt.mp bound
  have restored : UInt32.ofNat index.toNat = index := UInt32.ofNat_toNat
  rw [← restored]
  generalize index.toNat = number at small
  match number, small with
  | 0, _ => exact ⟨.variableName, rfl⟩
  | 1, _ => exact ⟨.keywordName, rfl⟩
  | 2, _ => exact ⟨.moduleName, rfl⟩
  | 3, _ => exact ⟨.functionName, rfl⟩
  | 4, _ => exact ⟨.className, rfl⟩
  | 5, _ => exact ⟨.parameterName, rfl⟩

theorem mem_all (category : Category) : category ∈ all := by
  cases category <;> decide

end Category

end SemanticTokens
