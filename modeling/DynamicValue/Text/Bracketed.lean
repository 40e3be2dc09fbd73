/-! Lists as text: parts in brackets, separated by a comma and a space. -/

namespace DynamicValue

namespace Text

def bracketed (parts : List String) : String := "[" ++ ", ".intercalate parts ++ "]"

end Text

end DynamicValue
