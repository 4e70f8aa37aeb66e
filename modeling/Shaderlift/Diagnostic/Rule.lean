import Shaderlift.Text.Template

/-!
The rules that a shader can break. Every rule has a number, which orders the rules and makes up its code,
a severity and a wording with places for names. Only one rule is a warning.
-/

namespace Shaderlift

/-- How grave a broken rule is. -/
inductive Severity where
  | warning
  | error
  deriving DecidableEq, Repr, Inhabited

def Severity.name : Severity → String
  | .warning => "warning"
  | .error => "error"

def Severity.title : Severity → String
  | .warning => "Warning"
  | .error => "Error"

/-- A rule. -/
inductive Rule where
  | anonymousObject
  | asyncModifier
  | awaitExpression
  | checkedExpression
  | checkedStatement
  | fixedStatement
  | forEachStatement
  | lockStatement
  | queryExpression
  | rangeExpression
  | recursivePattern
  | relationalPattern
  | refType
  | sizeOfUse
  | stackAlloc
  | throwing
  | tryCatch
  | tupleType
  | usingStatement
  | yielding
  | pointerType
  | functionPointerType
  | unsafeModifier
  | unsafeStatement
  | stringLiteral
  | invalidObjectCreation
  | invalidLocalType
  | nonConstantMatrixSwizzle
  | invalidMethodCall
  | unsupportedExpression
  | ambiguousMethodCall
  | invalidShaderFieldType
  | invalidStaticFieldType
  | invalidGroupSharedFieldType
  | invalidGroupSharedElementType
  | invalidGroupSharedDeclaration
  | missingShaderResources
  | invalidThreadIdsUsage
  | invalidGroupIdsUsage
  | invalidGridIdsUsage
  | invalidGroupSizeUsage
  | invalidDispatchSizeUsage
  | propertyDeclaration
  | dispatchDataSizeExceeded
  | multipleShaderInterfaces
  | missingShaderInterface
  | missingExecuteMethod
  | invalidThreadGroupSize
  | invalidDispatchAxis
  | invalidDiscoveredType
  | invalidD2DInputCount
  | missingD2DInputCount
  | repeatedD2DSimpleInputIndex
  | repeatedD2DComplexInputIndex
  | overlappingD2DInputIndex
  | d2dInputIndexOutOfRange
  | d2dInputDescriptionIndexOutOfRange
  | repeatedD2DInputDescriptionIndex
  | resourceTextureIndexOutOfRange
  | resourceTextureIndexOverlapsInput
  | repeatedResourceTextureIndex
  | missingResourceTextureIndex
  | resourceTextureIndexOnInvalidField
  | invalidResourceTextureElementType
  | missingScenePositionCapability
  | columnMajorPackingOption
  | enableLinkingWithComplexInputs
  | inaccessibleTargetType
  | inaccessibleFieldType
  | invalidEffectId
  | invalidEffectDisplayName
  | invalidEffectDescription
  | invalidEffectCategory
  | invalidEffectAuthor
  | uninferrableLocalType
  | compilerWin32Failure
  | compilerError
  deriving DecidableEq, Repr, Inhabited

/-- What stands in the table of the rules. -/
structure RuleInfo where
  number : Nat
  name : String
  wording : Template

namespace Rule

def all : List Rule :=
  [.anonymousObject, .asyncModifier, .awaitExpression, .checkedExpression, .checkedStatement,
   .fixedStatement, .forEachStatement, .lockStatement, .queryExpression, .rangeExpression,
   .recursivePattern, .relationalPattern, .refType, .sizeOfUse, .stackAlloc, .throwing, .tryCatch,
   .tupleType, .usingStatement, .yielding, .pointerType, .functionPointerType, .unsafeModifier,
   .unsafeStatement, .stringLiteral, .invalidObjectCreation, .invalidLocalType,
   .nonConstantMatrixSwizzle, .invalidMethodCall, .unsupportedExpression, .ambiguousMethodCall,
   .invalidShaderFieldType, .invalidStaticFieldType, .invalidGroupSharedFieldType,
   .invalidGroupSharedElementType, .invalidGroupSharedDeclaration, .missingShaderResources,
   .invalidThreadIdsUsage, .invalidGroupIdsUsage, .invalidGridIdsUsage, .invalidGroupSizeUsage,
   .invalidDispatchSizeUsage, .propertyDeclaration, .dispatchDataSizeExceeded,
   .multipleShaderInterfaces, .missingShaderInterface, .missingExecuteMethod, .invalidThreadGroupSize,
   .invalidDispatchAxis, .invalidDiscoveredType, .invalidD2DInputCount, .missingD2DInputCount,
   .repeatedD2DSimpleInputIndex, .repeatedD2DComplexInputIndex, .overlappingD2DInputIndex,
   .d2dInputIndexOutOfRange, .d2dInputDescriptionIndexOutOfRange, .repeatedD2DInputDescriptionIndex,
   .resourceTextureIndexOutOfRange, .resourceTextureIndexOverlapsInput, .repeatedResourceTextureIndex,
   .missingResourceTextureIndex, .resourceTextureIndexOnInvalidField,
   .invalidResourceTextureElementType, .missingScenePositionCapability, .columnMajorPackingOption,
   .enableLinkingWithComplexInputs, .inaccessibleTargetType, .inaccessibleFieldType, .invalidEffectId,
   .invalidEffectDisplayName, .invalidEffectDescription, .invalidEffectCategory, .invalidEffectAuthor,
   .uninferrableLocalType, .compilerWin32Failure, .compilerError]

def info : Rule → RuleInfo
  | .anonymousObject => ⟨1, "AnonymousObject", [.text "An anonymous object cannot be created in a shader"]⟩
  | .asyncModifier => ⟨2, "AsyncModifier",
      [.text "The method ", .arg 0,
       .text " cannot be async, as the async modifier cannot be used in a shader"]⟩
  | .awaitExpression => ⟨3, "AwaitExpression", [.text "An await expression cannot be used in a shader"]⟩
  | .checkedExpression => ⟨4, "CheckedExpression", [.text "A checked expression cannot be used in a shader"]⟩
  | .checkedStatement => ⟨5, "CheckedStatement", [.text "A checked statement cannot be used in a shader"]⟩
  | .fixedStatement => ⟨6, "FixedStatement", [.text "A fixed statement cannot be used in a shader"]⟩
  | .forEachStatement => ⟨7, "ForEachStatement", [.text "A foreach statement cannot be used in a shader"]⟩
  | .lockStatement => ⟨8, "LockStatement", [.text "A lock statement cannot be used in a shader"]⟩
  | .queryExpression => ⟨9, "QueryExpression", [.text "A LINQ query expression cannot be used in a shader"]⟩
  | .rangeExpression => ⟨10, "RangeExpression",
      [.text "A range or index-from-end expression cannot be used in a shader"]⟩
  | .recursivePattern => ⟨11, "RecursivePattern", [.text "A recursive pattern cannot be used in a shader"]⟩
  | .relationalPattern => ⟨12, "RelationalPattern", [.text "A relational pattern cannot be used in a shader"]⟩
  | .refType => ⟨13, "RefType",
      [.text "A ref local, ref return or ref expression cannot be used in a shader"]⟩
  | .sizeOfUse => ⟨14, "SizeOf", [.text "The sizeof operator cannot be used in a shader"]⟩
  | .stackAlloc => ⟨15, "StackAlloc", [.text "A stackalloc expression cannot be used in a shader"]⟩
  | .throwing => ⟨16, "Throw", [.text "A throw statement or expression cannot be used in a shader"]⟩
  | .tryCatch => ⟨17, "TryCatch", [.text "A try, catch or finally block cannot be used in a shader"]⟩
  | .tupleType => ⟨18, "TupleType", [.text "A tuple type or tuple literal cannot be used in a shader"]⟩
  | .usingStatement => ⟨19, "UsingStatement",
      [.text "A using statement or declaration cannot be used in a shader"]⟩
  | .yielding => ⟨20, "Yield", [.text "A yield statement cannot be used in a shader"]⟩
  | .pointerType => ⟨21, "PointerType",
      [.text "A pointer type or pointer operation cannot be used in a shader"]⟩
  | .functionPointerType => ⟨22, "FunctionPointerType",
      [.text "A function pointer type cannot be used in a shader"]⟩
  | .unsafeModifier => ⟨23, "UnsafeModifier",
      [.text "The method ", .arg 0,
       .text " cannot be unsafe, as the unsafe modifier cannot be used in a shader"]⟩
  | .unsafeStatement => ⟨24, "UnsafeStatement", [.text "An unsafe block cannot be used in a shader"]⟩
  | .stringLiteral => ⟨25, "StringLiteral", [.text "A string literal cannot be used in a shader"]⟩
  | .invalidObjectCreation => ⟨26, "InvalidObjectCreation",
      [.text "An object of type ", .arg 0, .text " cannot be created in a shader"]⟩
  | .invalidLocalType => ⟨27, "InvalidLocalType",
      [.text "A local variable of type ", .arg 0, .text " cannot be declared in a shader"]⟩
  | .nonConstantMatrixSwizzle => ⟨28, "NonConstantMatrixSwizzle",
      [.text "A matrix swizzle must use constant MatrixIndex arguments"]⟩
  | .invalidMethodCall => ⟨29, "InvalidMethodCall",
      [.text "The method ", .arg 0, .text " cannot be called from a shader"]⟩
  | .unsupportedExpression => ⟨30, "UnsupportedExpression",
      [.text "The ", .arg 0, .text " expression cannot be used in a shader"]⟩
  | .ambiguousMethodCall => ⟨31, "AmbiguousMethodCall",
      [.text "The call to ", .arg 0,
       .text " matches more than one overload, and the argument types do not select one of them"]⟩
  | .invalidShaderFieldType => ⟨100, "InvalidShaderFieldType",
      [.text "The shader of type ", .arg 0, .text " contains a field \"", .arg 1,
       .text "\" of an invalid type ", .arg 2]⟩
  | .invalidStaticFieldType => ⟨101, "InvalidStaticFieldType",
      [.text "The shader of type ", .arg 0, .text " contains a static field \"", .arg 1,
       .text "\" of an invalid type ", .arg 2]⟩
  | .invalidGroupSharedFieldType => ⟨102, "InvalidGroupSharedFieldType",
      [.text "The group shared field \"", .arg 1, .text "\" in the shader of type ", .arg 0,
       .text " must be an array, but has type ", .arg 2]⟩
  | .invalidGroupSharedElementType => ⟨103, "InvalidGroupSharedElementType",
      [.text "The group shared field \"", .arg 1, .text "\" in the shader of type ", .arg 0,
       .text " has an invalid element type ", .arg 2]⟩
  | .invalidGroupSharedDeclaration => ⟨104, "InvalidGroupSharedDeclaration",
      [.text "The group shared field \"", .arg 1, .text "\" in the shader of type ", .arg 0,
       .text " must be a static field of a compute shader"]⟩
  | .missingShaderResources => ⟨105, "MissingShaderResources",
      [.text "The compute shader of type ", .arg 0,
       .text " does not capture any resources, so it cannot produce observable results"]⟩
  | .invalidThreadIdsUsage => ⟨110, "InvalidThreadIdsUsage",
      [.text "ThreadIds can only be used within the Execute method of a compute shader (used in ", .arg 0,
       .text ")"]⟩
  | .invalidGroupIdsUsage => ⟨111, "InvalidGroupIdsUsage",
      [.text "GroupIds can only be used within the Execute method of a compute shader (used in ", .arg 0,
       .text ")"]⟩
  | .invalidGridIdsUsage => ⟨112, "InvalidGridIdsUsage",
      [.text "GridIds can only be used within the Execute method of a compute shader (used in ", .arg 0,
       .text ")"]⟩
  | .invalidGroupSizeUsage => ⟨113, "InvalidGroupSizeUsage",
      [.text "GroupSize can only be used within the Execute method of a compute shader (used in ", .arg 0,
       .text ")"]⟩
  | .invalidDispatchSizeUsage => ⟨114, "InvalidDispatchSizeUsage",
      [.text "DispatchSize can only be used within the Execute method of a compute shader (used in ", .arg 0,
       .text ")"]⟩
  | .propertyDeclaration => ⟨115, "PropertyDeclaration",
      [.text "The shader of type ", .arg 0, .text " declares the property \"", .arg 1,
       .text "\", but properties cannot be used in a shader"]⟩
  | .dispatchDataSizeExceeded => ⟨120, "DispatchDataSizeExceeded",
      [.text "The shader of type ", .arg 0, .text " captures ", .arg 1,
       .text " bytes of constant data, which exceeds the limit of ", .arg 2, .text " bytes"]⟩
  | .multipleShaderInterfaces => ⟨121, "MultipleShaderInterfaces",
      [.text "The type ", .arg 0, .text " implements more than one shader interface"]⟩
  | .missingShaderInterface => ⟨122, "MissingShaderInterface",
      [.text "The type ", .arg 0, .text " does not implement a shader interface"]⟩
  | .missingExecuteMethod => ⟨123, "MissingExecuteMethod",
      [.text "The shader of type ", .arg 0, .text " does not declare an Execute method"]⟩
  | .invalidThreadGroupSize => ⟨124, "InvalidThreadGroupSize",
      [.text "The thread group size ", .arg 1, .text " of the shader of type ", .arg 0, .text " is invalid"]⟩
  | .invalidDispatchAxis => ⟨125, "InvalidDispatchAxis",
      [.text "The shader of type ", .arg 0, .text " must dispatch along at least one axis"]⟩
  | .invalidDiscoveredType => ⟨126, "InvalidDiscoveredType",
      [.text "The type ", .arg 0, .text " has no HLSL equivalent and cannot be used in a shader"]⟩
  | .invalidD2DInputCount => ⟨130, "InvalidD2DInputCount",
      [.text "The D2D1 shader of type ", .arg 0, .text " has an invalid input count of ", .arg 1,
       .text " (it must be in the [0, 8] range)"]⟩
  | .missingD2DInputCount => ⟨131, "MissingD2DInputCount",
      [.text "The D2D1 shader of type ", .arg 0, .text " does not declare its number of inputs"]⟩
  | .repeatedD2DSimpleInputIndex => ⟨132, "RepeatedD2DSimpleInputIndex",
      [.text "The D2D1 shader of type ", .arg 0, .text " declares the simple input index ", .arg 1,
       .text " more than once"]⟩
  | .repeatedD2DComplexInputIndex => ⟨133, "RepeatedD2DComplexInputIndex",
      [.text "The D2D1 shader of type ", .arg 0, .text " declares the complex input index ", .arg 1,
       .text " more than once"]⟩
  | .overlappingD2DInputIndex => ⟨134, "OverlappingD2DInputIndex",
      [.text "The D2D1 shader of type ", .arg 0, .text " declares the input index ", .arg 1,
       .text " as both simple and complex"]⟩
  | .d2dInputIndexOutOfRange => ⟨135, "D2DInputIndexOutOfRange",
      [.text "The D2D1 shader of type ", .arg 0, .text " declares the input index ", .arg 1,
       .text ", which is outside of the [0, ", .arg 2, .text ") range"]⟩
  | .d2dInputDescriptionIndexOutOfRange => ⟨136, "D2DInputDescriptionIndexOutOfRange",
      [.text "The D2D1 shader of type ", .arg 0, .text " describes the input index ", .arg 1,
       .text ", which is outside of the [0, ", .arg 2, .text ") range"]⟩
  | .repeatedD2DInputDescriptionIndex => ⟨137, "RepeatedD2DInputDescriptionIndex",
      [.text "The D2D1 shader of type ", .arg 0, .text " describes the input index ", .arg 1,
       .text " more than once"]⟩
  | .resourceTextureIndexOutOfRange => ⟨140, "ResourceTextureIndexOutOfRange",
      [.text "The resource texture field \"", .arg 1, .text "\" in the D2D1 shader of type ", .arg 0,
       .text " has index ", .arg 2, .text ", which must be less than 16"]⟩
  | .resourceTextureIndexOverlapsInput => ⟨141, "ResourceTextureIndexOverlapsInput",
      [.text "The resource texture field \"", .arg 1, .text "\" in the D2D1 shader of type ", .arg 0,
       .text " has index ", .arg 2, .text ", which overlaps with an input (the shader declares ", .arg 3,
       .text " inputs)"]⟩
  | .repeatedResourceTextureIndex => ⟨142, "RepeatedResourceTextureIndex",
      [.text "The resource texture field \"", .arg 1, .text "\" in the D2D1 shader of type ", .arg 0,
       .text " reuses index ", .arg 2]⟩
  | .missingResourceTextureIndex => ⟨143, "MissingResourceTextureIndex",
      [.text "The resource texture field \"", .arg 1, .text "\" in the D2D1 shader of type ", .arg 0,
       .text " does not have an assigned index"]⟩
  | .resourceTextureIndexOnInvalidField => ⟨144, "ResourceTextureIndexOnInvalidField",
      [.text "A resource texture index is assigned to \"", .arg 1, .text "\" in the D2D1 shader of type ",
       .arg 0, .text ", which is not a resource texture field"]⟩
  | .invalidResourceTextureElementType => ⟨145, "InvalidResourceTextureElementType",
      [.text "The resource texture field \"", .arg 1, .text "\" in the D2D1 shader of type ", .arg 0,
       .text " has element type ", .arg 2, .text ", but only float and float4 are supported"]⟩
  | .missingScenePositionCapability => ⟨150, "MissingScenePositionCapability",
      [.text "The D2D1 shader of type ", .arg 0,
       .text " uses the scene position, but does not declare that it requires it"]⟩
  | .columnMajorPackingOption => ⟨151, "ColumnMajorPackingOption",
      [.text "The shader of type ", .arg 0,
       .text " requests column-major matrix packing, which is not supported"]⟩
  | .enableLinkingWithComplexInputs => ⟨152, "EnableLinkingWithComplexInputs",
      [.text "The D2D1 shader of type ", .arg 0,
       .text " enables linking, which is not supported for shaders with complex inputs"]⟩
  | .inaccessibleTargetType => ⟨153, "InaccessibleTargetType",
      [.text "The shader of type ", .arg 0,
       .text " is not accessible, so its descriptor cannot be generated"]⟩
  | .inaccessibleFieldType => ⟨154, "InaccessibleFieldType",
      [.text "The field \"", .arg 1, .text "\" in the shader of type ", .arg 0, .text " has the type ",
       .arg 2, .text ", which is not accessible"]⟩
  | .invalidEffectId => ⟨160, "InvalidEffectId",
      [.text "The D2D1 shader of type ", .arg 0, .text " has an invalid effect id \"", .arg 1,
       .text "\" (it must be a GUID)"]⟩
  | .invalidEffectDisplayName => ⟨161, "InvalidEffectDisplayName",
      [.text "The D2D1 shader of type ", .arg 0, .text " has an invalid effect display name"]⟩
  | .invalidEffectDescription => ⟨162, "InvalidEffectDescription",
      [.text "The D2D1 shader of type ", .arg 0, .text " has an invalid effect description"]⟩
  | .invalidEffectCategory => ⟨163, "InvalidEffectCategory",
      [.text "The D2D1 shader of type ", .arg 0, .text " has an invalid effect category"]⟩
  | .invalidEffectAuthor => ⟨164, "InvalidEffectAuthor",
      [.text "The D2D1 shader of type ", .arg 0, .text " has an invalid effect author"]⟩
  | .uninferrableLocalType => ⟨170, "UninferrableLocalType",
      [.text "The type of the local \"", .arg 0,
       .text "\" cannot be inferred; declare it with an explicit type"]⟩
  | .compilerWin32Failure => ⟨200, "CompilerWin32Failure",
      [.text "The shader of type ", .arg 0, .text " failed to compile (HRESULT 0x", .arg 1, .text "): ",
       .arg 2]⟩
  | .compilerError => ⟨201, "CompilerError",
      [.text "The shader of type ", .arg 0, .text " failed to compile: ", .arg 1]⟩

def number (rule : Rule) : Nat := rule.info.number

def name (rule : Rule) : String := rule.info.name

def wording (rule : Rule) : Template := rule.info.wording

def severity : Rule → Severity
  | .missingShaderResources => .warning
  | _ => .error

def ofName? (name : String) : Option Rule :=
  all.find? fun rule => rule.name == name

def fourDigits (number : Nat) : String :=
  let digits := toString number
  String.ofList (List.replicate (4 - digits.length) '0') ++ digits

def code (rule : Rule) : String :=
  "KLN" ++ fourDigits rule.number

end Rule

end Shaderlift
