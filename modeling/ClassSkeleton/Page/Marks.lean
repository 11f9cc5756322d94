import ClassSkeleton.Text.Basic

/-!
The marks by which the parts of a class page are found, as the pages of javadoc 8 have them.
-/
namespace ClassSkeleton.ClassPage

def titleMark : Text := "<h2 title=\"".toList

def headingEnd : Text := "</h2>".toList

def inheritanceMark : Text := "<ul class=\"inheritance\">".toList

def descriptionMark : Text := "<div class=\"description\">".toList

def linkMark : Text := "<a href=\"".toList

def interfacesMark : Text := "All Implemented Interfaces:".toList

def listOpening : Text := "<dd>".toList

def listClosing : Text := "</dd>".toList

def declarationOpening : Text := "<pre>".toList

def declarationClosing : Text := "</pre>".toList

def fieldDetail : Text := "<h3>Field Detail</h3>".toList

def constructorDetail : Text := "<h3>Constructor Detail</h3>".toList

def methodDetail : Text := "<h3>Method Detail</h3>".toList

def classDataEnd : Text := "<!-- ========= END OF CLASS DATA ========= -->".toList

def memberHeading : Text := "<h4>".toList

def proseMark : Text := "<div class=\"block\">".toList

end ClassSkeleton.ClassPage
