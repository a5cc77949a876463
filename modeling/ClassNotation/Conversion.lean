import ClassNotation.Diagram.Reading
import ClassNotation.Java.Source

/-! From the text of a diagram to the Java sources of its classes. -/

namespace ClassNotation

def convert (package : Option Text) (t : Text) : Except ParseError Java.Sources :=
  (readBlocks t).map (Java.sources package)

end ClassNotation
