import VisibilityRules.Device.Class
import VisibilityRules.Text.Digit
import VisibilityRules.Text.LowerCase
import VisibilityRules.Text.Split

set_option autoImplicit false

/-!
Devices told by the name a browser gives itself. The words looked for match in either case, where
the Kelvin sign counts as a k and the long s as an s. An Android device that does not call itself
mobile is a tablet.
-/
namespace VisibilityRules.UserAgent

/-- Writes a letter of the words, in any of its cases, as the small letter. -/
def foldCase (c : Char) : Char :=
  if c = '\u212A' then 'k' else if c = '\u017F' then 's' else Text.lowerAscii c

def tabletWords : List String :=
  ["ipad", "tablet", "playbook", "kindle", "silk/", "nexus 7", "nexus 9", "nexus 10", "xoom",
   "sch-i800"]

def tabletSeries : List String := ["sm-t", "gt-p", "tab"]

def mobileWords : List String :=
  ["iphone", "ipod", "android", "blackberry", "bb10", "windows phone", "iemobile", "opera mini",
   "opera mobi", "mobile", "webos", "palm", "symbian", "nokia", "fennec", "kindle", "silk/"]

def names (agent : List Char) (word : String) : Bool :=
  Text.contains (agent.map foldCase) word.toList

def numberedFront (word text : List Char) : Bool :=
  match Text.dropFront word text with
  | some (c :: _) => Text.isDecimalDigit c
  | _ => false

def numbered (word : List Char) : List Char → Bool
  | [] => false
  | c :: rest => numberedFront word (c :: rest) || numbered word rest

def namesSeries (agent : List Char) (word : String) : Bool :=
  numbered word.toList (agent.map foldCase)

def isAndroidTablet (agent : List Char) : Bool :=
  let lower := Text.lowerChars agent
  Text.contains lower "android".toList && !Text.contains lower "mobile".toList

def isTablet (agent : List Char) : Bool :=
  isAndroidTablet agent || tabletWords.any (names agent) || tabletSeries.any (namesSeries agent)

def isMobile (agent : List Char) : Bool := isTablet agent || mobileWords.any (names agent)

def classify (agent : String) : Device := ⟨isMobile agent.toList, isTablet agent.toList⟩

end VisibilityRules.UserAgent
