import LayoutTech.Component.Connectivity
import LayoutTech.Grids
import LayoutTech.Text.Quoted
import LayoutTech.Xml.Tree

/-!
# Faults

Everything that can go wrong with a technology, by cause, and the sentence for each.
-/

namespace LayoutTech

inductive FileFault where
  | notFound
  | notADirectory
  | isADirectory
  | tooManyLinks
  | nameTooLong
  | nullInPath
  | notText
  | notADirectoryToScan
deriving DecidableEq, Repr

def FileFault.message : FileFault → String
  | .notFound => "No such file or directory (os error 2)"
  | .notADirectory => "Not a directory (os error 20)"
  | .isADirectory => "Is a directory (os error 21)"
  | .tooManyLinks => "Too many levels of symbolic links (os error 40)"
  | .nameTooLong => "File name too long (os error 36)"
  | .nullInPath => "file name contained an unexpected NUL byte"
  | .notText => "stream did not contain valid UTF-8"
  | .notADirectoryToScan => "not a directory"

/-- What can be wrong with a component apart from the document that holds it. -/
inductive ComponentFault where
  | connectivity (fault : ConnectivityFault)
  | noCodec (name : String)
  | notConnectivity (name : String)
  | notView25 (name : String)
deriving DecidableEq, Repr

def ComponentFault.message : ComponentFault → String
  | .connectivity fault => fault.message
  | .noCodec name => s!"No codec registered for component '{name}'"
  | .notConnectivity name => s!"Component '{name}' is not a NetTracerTechnology"
  | .notView25 name => s!"Component '{name}' is not a D25Technology"

/-- Why a document is no technology, or a technology has no document. -/
inductive DocumentFault where
  | xml (fault : Xml.Fault)
  | wrongRoot (expected found : String)
  | nameMissing
  | unitNotANumber (text : String)
  | unitNotPositive (text : String)
  | unitNotWritable (unit : Binary64) (technology : String)
  | notABoolean (tag text : String)
  | grids (fault : Grids.Fault)
  | optionNotText (tag key format : String)
  | badFormatName (tag format : String)
  | badOptionName (tag key : String)
  | component (tag : String) (fault : ComponentFault)
  | componentTwice (tag technology : String)
deriving DecidableEq

inductive Fault where
  | duplicateName (name : String)
  | notFound (name : String)
  | malformed (cause : DocumentFault)
  | grids (fault : Grids.Fault)
  | file (path : String) (fault : FileFault)
  | component (fault : ComponentFault)
deriving DecidableEq

def Grids.Fault.sentence (fault : Grids.Fault) : String := "Invalid default grid list: " ++ fault.message

def DocumentFault.message : DocumentFault → String
  | .xml fault => fault.message
  | .wrongRoot expected found => s!"Expected <{expected}> root element, found <{found}>"
  | .nameMissing => "Required element <name> is missing"
  | .unitNotANumber text => s!"<dbu>: '{text}' is not a number"
  | .unitNotPositive text => s!"<dbu>: '{text}' is not a positive database unit"
  | .unitNotWritable unit technology =>
    s!"<dbu>: {unit} is not a positive database unit in technology '{technology}'"
  | .notABoolean tag text => s!"<{tag}>: '{text}' is not a boolean"
  | .grids fault => "<default-grids>: " ++ fault.sentence
  | .optionNotText tag key format => s!"<{tag}>: option <{key}> of format <{format}> must be a text value"
  | .badFormatName tag format => s!"<{tag}>: '{format}' is not a valid format name"
  | .badOptionName tag key => s!"<{tag}>: '{key}' is not a valid option name"
  | .component tag fault => s!"Component <{tag}>: " ++ fault.message
  | .componentTwice tag technology => s!"Component '{tag}' is defined twice in technology '{technology}'"

def Fault.message : Fault → String
  | .duplicateName name => s!"A technology named '{name}' already exists"
  | .notFound name => s!"Technology not found: {name}"
  | .malformed cause => "Malformed technology XML: " ++ cause.message
  | .grids fault => fault.sentence
  | .file path fault =>
    "Unable to access technology file " ++ Text.quotedPath path ++ ": " ++ fault.message
  | .component fault => "Technology component error: " ++ fault.message

end LayoutTech
