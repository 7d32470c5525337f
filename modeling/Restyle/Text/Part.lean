/-! # Parts of a text -/
namespace Restyle.Text

def hasPart (text part : List Char) : Bool :=
  part.isPrefixOf text || match text with
    | [] => false
    | _ :: rest => hasPart rest part

end Restyle.Text
