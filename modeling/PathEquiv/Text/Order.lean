set_option autoImplicit false

namespace PathEquiv.Text

def le (a b : String) : Bool :=
  decide (a ≤ b)

def shortlexLe (a b : String) : Bool :=
  a.utf8ByteSize < b.utf8ByteSize || (a.utf8ByteSize == b.utf8ByteSize && le a b)

def distinctSorted (names : List String) : List String :=
  names.eraseDups.mergeSort le

end PathEquiv.Text
