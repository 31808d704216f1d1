import LoginSession.Json.Printer

namespace LoginSession.Json

def IsGap (cs : List Char) : Prop := ∀ c ∈ cs, isSpace c = true

mutual

/-- The texts of a JSON value: its literals as they are printed, with any blanks between the tokens.
-/
inductive Layout : Json → List Char → Prop where
  | null : Layout .null "null".toList
  | yes : Layout (.boolean true) "true".toList
  | no : Layout (.boolean false) "false".toList
  | integer (n : Int) : Layout (.integer n) (toString n).toList
  | string (text : String) : Layout (.string (some text)) (quote text).toList
  | emptyArray {gap : List Char} (isGap : IsGap gap) : Layout (.array []) ('[' :: (gap ++ [']']))
  | array {values : List Json} {cs : List Char} (elements : ElementsLayout values cs) :
    Layout (.array values) ('[' :: (cs ++ [']']))
  | emptyObject {gap : List Char} (isGap : IsGap gap) :
    Layout (.object []) ('\x7b' :: (gap ++ ['\x7d']))
  | object {members : List (Option String × Json)} {cs : List Char}
    (layout : MembersLayout members cs) : Layout (.object members) ('\x7b' :: (cs ++ ['\x7d']))

inductive PaddedLayout : Json → List Char → Prop where
  | intro {value : Json} {before cs after : List Char} (gapBefore : IsGap before)
    (layout : Layout value cs) (gapAfter : IsGap after) :
    PaddedLayout value (before ++ (cs ++ after))

inductive ElementsLayout : List Json → List Char → Prop where
  | last {value : Json} {cs : List Char} (layout : PaddedLayout value cs) :
    ElementsLayout [value] cs
  | cons {value : Json} {values : List Json} {cs more : List Char}
    (layout : PaddedLayout value cs) (elements : ElementsLayout values more) :
    ElementsLayout (value :: values) (cs ++ ',' :: more)

inductive MembersLayout : List (Option String × Json) → List Char → Prop where
  | last {name : String} {value : Json} {before colon cs : List Char} (gapBefore : IsGap before)
    (gapColon : IsGap colon) (layout : PaddedLayout value cs) :
    MembersLayout [(some name, value)] (before ++ ((quote name).toList ++ (colon ++ ':' :: cs)))
  | cons {name : String} {value : Json} {members : List (Option String × Json)}
    {before colon cs more : List Char} (gapBefore : IsGap before) (gapColon : IsGap colon)
    (layout : PaddedLayout value cs) (rest : MembersLayout members more) :
    MembersLayout ((some name, value) :: members)
      (before ++ ((quote name).toList ++ (colon ++ ':' :: (cs ++ ',' :: more))))

end

end LoginSession.Json
